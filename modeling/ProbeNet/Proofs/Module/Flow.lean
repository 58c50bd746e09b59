import ProbeNet.Node.Module
import ProbeNet.Proofs.Engine.Serving
import ProbeNet.Proofs.Event.Delivery
import ProbeNet.Proofs.Stream.Merging
import ProbeNet.Proofs.Stream.Routing
import ProbeNet.Proofs.Stream.Stores

/-!
# The flits inside a module

Between the input of a module and its output every flit is in one place.  A
`ModuleHistory` records what has passed each of the places, and
`DebugModule.Traces` says that the parts of the module hold exactly what has
passed the place in front of them and not the one behind them.  Every part
keeps this in its step, and so does whoever uses the module from outside.
-/

namespace ProbeNet

open Register

/-- What has passed the places inside a module. -/
structure ModuleHistory where
  /-- How many flits the input buffer has room for. -/
  depth : Nat
  /-- The flits that the input buffer took. -/
  received : List Flit := []
  /-- The flits that the demultiplexer took. -/
  crossed : List Flit := []
  /-- The flits that the engine took. -/
  served : List Flit := []
  /-- The flits that the engine sent. -/
  answered : List Flit := []
  /-- The flits that the inbox took. -/
  bypassed : List Flit := []
  /-- The event packets that were queued. -/
  emitted : List Packet := []
  /-- What the arbiter let through, from the engine (0) and the outbox (1). -/
  outgoing : Passage := {}

/-- What the demultiplexer has sent each way: the links behind it still hold the
last flits of that. -/
def ModuleHistory.sentTo (h : ModuleHistory) (m : DebugModule ModuleBackend) :
    Route → List Flit
  | .register => h.served ++ m.toEngine.slot.toList
  | .bypass => h.bypassed ++ m.toInbox.slot.toList

/-- What has been sent each way does not depend on the other places. -/
theorem ModuleHistory.sentTo_congr {h h' : ModuleHistory} {m m' : DebugModule ModuleBackend}
    (hserved : h'.served = h.served) (hbypassed : h'.bypassed = h.bypassed)
    (htoEngine : m'.toEngine = m.toEngine) (htoInbox : m'.toInbox = m.toInbox) :
    h'.sentTo m' = h.sentTo m := by
  funext way
  cases way with
  | register => rw [sentTo, sentTo, hserved, htoEngine]
  | bypass => rw [sentTo, sentTo, hbypassed, htoInbox]

namespace DebugModule

/-- The history of a module whose registers were `u` at the start. -/
structure Traces (u : RegisterUnit) (m : DebugModule ModuleBackend) (h : ModuleHistory) :
    Prop where
  depth : m.input.depth = h.depth
  received : h.received = h.crossed ++ m.input.flits
  input : m.input.Whole h.crossed
  demux : m.demux.Carries h.crossed (h.sentTo m)
  engine : m.engine.Serves u h.served h.answered
  answers : h.answered = h.outgoing.share 0 ++ m.fromEngine.slot.toList
  events : Packet.stream h.emitted = h.outgoing.share 1 ++ m.outbox.flits
  eventClass : ∀ p ∈ h.emitted, p.packetClass = .event
  inbox : m.inboxReader.flits = Flit.openRun h.bypassed
  arbiter : m.arbiter.Tracks h.outgoing [m.fromEngine.slot, m.outbox.peek]

variable {u : RegisterUnit} {m : DebugModule ModuleBackend} {h : ModuleHistory}

/-- A module that could be built is empty.  Its packets have room for a payload, and its input
buffer has room for a packet. -/
theorem of_initial {address : Address} {config : EngineConfig} {backend : ModuleBackend}
    {bufferDepth maxPacketLen : Nat}
    (hm : DebugModule.initial address config backend bufferDepth maxPacketLen = .ok m) :
    m = { address, maxPacketLen, input := .empty bufferDepth .wholePacket,
          engine := .initial config backend } ∧
      maxPayloadWords maxPacketLen ≠ 0 ∧ maxPacketLen ≤ bufferDepth := by
  unfold DebugModule.initial at hm
  split_ifs at hm with hpayload
  split at hm
  · cases hm
  · rename_i input hinput
    obtain ⟨rfl, -, hlimit⟩ := Buffer.of_wholePacket hinput
    exact ⟨(Except.ok.inj hm).symm, hpayload, hlimit⟩

theorem traces_initial {address : Address} {config : EngineConfig} {backend : ModuleBackend}
    {bufferDepth maxPacketLen : Nat}
    (hm : DebugModule.initial address config backend bufferDepth maxPacketLen = .ok m) :
    m.Traces (.initial config backend) { depth := bufferDepth } ∧ maxPacketLen ≤ bufferDepth := by
  obtain ⟨rfl, -, hlimit⟩ := of_initial hm
  refine ⟨?_, hlimit⟩
  exact ⟨rfl, rfl, Buffer.whole_empty _,
    Demux.carries_initial.congr fun way => by cases way <;> rfl,
    Engine.serves_initial config backend, rfl, rfl, by simp, rfl, Arbiter.tracks_initial _⟩

/-! ## What the parts do in a step -/

theorem headOf_pair {x y : Option Flit} {i : Nat} {f : Flit}
    (hhead : Arbiter.headOf [x, y] i = some f) : i = 0 ∧ x = some f ∨ i = 1 ∧ y = some f := by
  rcases i with _ | _ | i
  · exact Or.inl ⟨rfl, by simpa [Arbiter.headOf] using hhead⟩
  · exact Or.inr ⟨rfl, by simpa [Arbiter.headOf] using hhead⟩
  · simp [Arbiter.headOf] at hhead

/-- The arbiter presents a flit of the engine or of the outbox, which leaves if
the output is ready; or nothing happens. -/
theorem stepArbiter_cases (m : DebugModule ModuleBackend) (ready : Bool) :
    (m.stepArbiter ready = (m, none) ∧ ∀ i, m.arbiter.granted = none ∨ m.arbiter.granted = some i →
      Arbiter.headOf [m.fromEngine.slot, m.outbox.peek] i = none) ∨
    ∃ arbiter i f, (m.arbiter.granted = none ∨ m.arbiter.granted = some i) ∧
      arbiter.granted = (if ready && f.last then none else some i) ∧
      ((i = 0 ∧ m.fromEngine.slot = some f ∧ m.stepArbiter ready =
          ({ m with arbiter, fromEngine := m.fromEngine.popIf ready }, some f)) ∨
        (i = 1 ∧ m.outbox.peek = some f ∧ m.stepArbiter ready =
          ({ m with arbiter, outbox := m.outbox.popIf ready }, some f))) := by
  rcases m.arbiter.tick_cases [m.fromEngine.slot, m.outbox.peek] ready with
    ⟨htick, hnone⟩ | ⟨i, f, hhead, hgranted, hoffered, hgranted'⟩
  · refine Or.inl ⟨?_, hnone⟩
    simp only [stepArbiter, htick]
    cases ready <;> rfl
  · refine Or.inr ⟨_, i, f, hgranted, hgranted', ?_⟩
    rcases headOf_pair hhead with ⟨rfl, hslot⟩ | ⟨rfl, hpeek⟩
    · refine Or.inl ⟨rfl, hslot, ?_⟩
      simp only [stepArbiter, hoffered]
      cases ready <;> rfl
    · refine Or.inr ⟨rfl, hpeek, ?_⟩
      simp only [stepArbiter, hoffered]
      cases ready <;> rfl

/-- The inbox takes the flit on its link. -/
theorem stepInbox_eq (m : DebugModule ModuleBackend) :
    ∃ inbox dropped, m.stepInbox =
      { m with
        inboxReader := (m.inboxReader.tick m.toInbox.slot).1
        toInbox := m.toInbox.pop
        inbox
        inboxDropped := dropped } := by
  simp only [stepInbox]
  split
  · unfold deliver
    split <;> exact ⟨_, _, rfl⟩
  all_goals exact ⟨_, _, rfl⟩

/-- The step of the demultiplexer moves flits onto the links behind it. -/
theorem stepDemux_eq (m : DebugModule ModuleBackend) :
    ∃ toEngine toInbox, m.stepDemux =
        { m with
          demux := (m.demux.tick m.input.peek m.wayReady).demux
          input := m.input.popIf (m.demux.tick m.input.peek m.wayReady).taken
          toEngine
          toInbox } ∧
      toEngine.slot.toList =
        m.toEngine.slot.toList ++ (m.demux.tick m.input.peek m.wayReady).sentTo .register ∧
      toInbox.slot.toList =
        m.toInbox.slot.toList ++ (m.demux.tick m.input.peek m.wayReady).sentTo .bypass := by
  simp only [stepDemux, Demux.Step.sentTo, Demux.tick_moved]
  rcases (m.demux.tick m.input.peek m.wayReady).offered with _ | ⟨_ | _, f⟩
  · exact ⟨m.toEngine, m.toInbox, rfl, by simp, by simp⟩
  · refine ⟨m.toEngine.push f, m.toInbox, rfl, ?_, ?_⟩
    · cases hr : m.toEngine.ready <;> simp [Option.filter, wayReady, hr]
    · cases hr : m.toEngine.ready <;> simp [Option.filter, wayReady, hr]
  · refine ⟨m.toEngine, m.toInbox.push f, rfl, ?_, ?_⟩
    · cases hr : m.toInbox.ready <;> simp [Option.filter, wayReady, hr]
    · cases hr : m.toInbox.ready <;> simp [Option.filter, wayReady, hr]

/-- What the engine does in the next step. -/
def engineStep (m : DebugModule ModuleBackend) : Engine.Step ModuleBackend :=
  m.engine.tick m.toEngine.slot m.fromEngine.ready

/-- What the demultiplexer does in the next step. -/
def demuxStep (m : DebugModule ModuleBackend) : Demux.Step :=
  m.demux.tick m.input.peek m.wayReady

end DebugModule

namespace ModuleHistory

variable (h : ModuleHistory) (m : DebugModule ModuleBackend)

/-- The history after the step of the engine. -/
def afterEngine : ModuleHistory :=
  { h with
    served := h.served ++ if m.engineStep.taken then m.toEngine.slot.toList else []
    answered := h.answered ++ if m.fromEngine.ready then m.engineStep.offered.toList else [] }

/-- The history after the step of the inbox. -/
def afterInbox : ModuleHistory := { h with bypassed := h.bypassed ++ m.toInbox.slot.toList }

/-- The history after the step of the demultiplexer. -/
def afterDemux : ModuleHistory :=
  { h with crossed := h.crossed ++ if m.demuxStep.taken then m.input.peek.toList else [] }

/-- The parts behind the demultiplexer take what it has sent before. -/
theorem sentTo_afterEngine (way : Route) :
    (h.afterEngine m).sentTo m.stepEngine way = h.sentTo m way := by
  cases way with
  | register =>
    show (h.served ++ _) ++ (m.toEngine.popIf m.engineStep.taken).slot.toList = _
    cases hout : m.engineStep.taken <;> simp [sentTo]
  | bypass => rfl

theorem sentTo_afterInbox (way : Route) :
    (h.afterInbox m).sentTo m.stepInbox way = h.sentTo m way := by
  obtain ⟨inbox, dropped, hstep⟩ := m.stepInbox_eq
  rw [hstep]
  cases way with
  | register => rfl
  | bypass => exact List.append_nil _

theorem sentTo_afterDemux (way : Route) :
    (h.afterDemux m).sentTo m.stepDemux way = h.sentTo m way ++ m.demuxStep.sentTo way := by
  obtain ⟨toEngine, toInbox, hstep, hregister, hbypass⟩ := m.stepDemux_eq
  rw [hstep]
  cases way with
  | register =>
    show h.served ++ toEngine.slot.toList = _
    rw [hregister, ← List.append_assoc]
    rfl
  | bypass =>
    show h.bypassed ++ toInbox.slot.toList = _
    rw [hbypass, ← List.append_assoc]
    rfl

end ModuleHistory

namespace DebugModule

variable {u : RegisterUnit} {m : DebugModule ModuleBackend} {h : ModuleHistory}

/-! ## Every flit is somewhere -/

/-- The arbiter lets a flit of the engine or of the outbox through. -/
theorem Traces.stepArbiter (t : m.Traces u h) (ready : Bool) :
    ∃ outgoing : Passage, (m.stepArbiter ready).1.Traces u { h with outgoing } ∧
      outgoing.whole =
        h.outgoing.whole ++ if ready then (m.stepArbiter ready).2.toList else [] := by
  rcases m.stepArbiter_cases ready with
    ⟨hstep, -⟩ | ⟨arbiter, i, f, hgranted, hgranted', ⟨rfl, hslot, hstep⟩ | ⟨rfl, hpeek, hstep⟩⟩
  · rw [hstep]
    exact ⟨h.outgoing, t, by simp⟩
  · rw [hstep]
    have hhead : Arbiter.headOf [m.fromEngine.slot, m.outbox.peek] 0 = some f := by
      simpa [Arbiter.headOf] using hslot
    cases ready with
    | false =>
      refine ⟨h.outgoing, ?_, by simp⟩
      exact { t with arbiter := t.arbiter.hold hhead hgranted (by simpa using hgranted') }
    | true =>
      have howner := t.arbiter.owner_of_granted hgranted
      refine ⟨h.outgoing.pass 0 f, ?_, by simp⟩
      refine { t with
        answers := ?_
        events := ?_
        arbiter := t.arbiter.pass hhead (by simpa using hgranted') rfl }
      · rw [Passage.share_pass_self t.arbiter.sound f howner, t.answers, hslot]
        simp
      · rw [Passage.share_pass_of_ne f howner (by decide), t.events]
  · rw [hstep]
    have hhead : Arbiter.headOf [m.fromEngine.slot, m.outbox.peek] 1 = some f := by
      simpa [Arbiter.headOf] using hpeek
    cases ready with
    | false =>
      refine ⟨h.outgoing, ?_, by simp⟩
      exact { t with arbiter := t.arbiter.hold hhead hgranted (by simpa using hgranted') }
    | true =>
      have howner := t.arbiter.owner_of_granted hgranted
      obtain ⟨rest, hrest⟩ := List.head?_eq_some_iff.mp hpeek
      refine ⟨h.outgoing.pass 1 f, ?_, by simp⟩
      refine { t with
        answers := ?_
        events := ?_
        arbiter := t.arbiter.pass hhead (by simpa using hgranted') rfl }
      · rw [Passage.share_pass_of_ne f howner (by decide), t.answers]
      · rw [Passage.share_pass_self t.arbiter.sound f howner, t.events, hrest]
        simp [PacketWriter.popIf, PacketWriter.pop, hrest]

/-- The engine takes the flit on its link, or puts one on the link behind it. -/
theorem Traces.stepEngine (t : m.Traces u h) : m.stepEngine.Traces u (h.afterEngine m) := by
  refine { t with
    demux := t.demux.congr (h.sentTo_afterEngine m)
    engine := t.engine.tick m.toEngine.slot m.fromEngine.ready
    answers := ?_
    arbiter := t.arbiter.mono rfl ?_ }
  · show h.answered ++ _ =
      h.outgoing.share 0 ++ (m.fromEngine.offer m.engineStep.offered).slot.toList
    rw [t.answers, Link.slot_offer, List.append_assoc]
  · intro i hshown
    rcases i with _ | i
    · have hslot : m.fromEngine.slot.isSome = true := by simpa [Arbiter.headOf] using hshown
      show (m.fromEngine.offer m.engineStep.offered).slot.isSome = true
      rw [Link.offer_of_isSome hslot]
      exact hslot
    · exact hshown

/-- The inbox takes the flit on its link. -/
theorem Traces.stepInbox (t : m.Traces u h) : m.stepInbox.Traces u (h.afterInbox m) := by
  have hdemux := t.demux.congr (h.sentTo_afterInbox m)
  obtain ⟨inbox, dropped, hstep⟩ := m.stepInbox_eq
  rw [hstep] at hdemux ⊢
  exact { t with
    demux := hdemux
    inbox := PacketReader.flits_tick t.inbox m.toInbox.slot }

/-- The demultiplexer takes the flit that the buffer shows, or puts one on a
link behind it. -/
theorem Traces.stepDemux (t : m.Traces u h) : m.stepDemux.Traces u (h.afterDemux m) := by
  have hcarries := (t.demux.tick m.input.peek m.wayReady).congr (h.sentTo_afterDemux m)
  obtain ⟨toEngine, toInbox, hstep, -, -⟩ := m.stepDemux_eq
  rw [hstep] at hcarries ⊢
  refine { t with
    depth := (Buffer.popIf_depth ..).trans t.depth
    received := ?_
    input := t.input.popIf _
    demux := hcarries }
  show h.received = (h.crossed ++ if m.demuxStep.taken then m.input.peek.toList else []) ++
    (m.input.popIf m.demuxStep.taken).flits
  rw [List.append_assoc, Buffer.flits_popIf]
  exact t.received

/-! ## The module from outside -/

/-- An idle module holds no flit, and its engine has no packet in hand. -/
theorem isIdle_iff {m : DebugModule ModuleBackend} : m.isIdle = true ↔
    m.input.flits = [] ∧ m.demux.phase = .header [] ∧ m.toEngine.slot = none ∧
      m.toInbox.slot = none ∧ (m.engine.phase = .idle ∧ m.engine.reader.flits = []) ∧
      m.fromEngine.slot = none ∧ m.outbox.flits = [] ∧ m.inboxReader.flits = [] := by
  simp only [isIdle, Bool.and_eq_true, Engine.isIdle_iff, Buffer.isEmpty, List.isEmpty_iff, Demux.isIdle,
    decide_eq_true_eq, Link.isValid, Bool.not_eq_true', Option.isSome_eq_false_iff,
    Option.isNone_iff_eq_none, PacketWriter.isIdle, PacketReader.inPacket, Bool.not_eq_false',
    and_assoc]

/-- A whole step of a module. -/
theorem Traces.tick (t : m.Traces u h) (ready : Bool) :
    ∃ h', (m.tick ready).1.Traces u h' ∧ h'.depth = h.depth ∧ h'.received = h.received ∧
      h'.emitted = h.emitted ∧
      h'.outgoing.whole = h.outgoing.whole ++ if ready then (m.tick ready).2.toList else [] := by
  obtain ⟨outgoing, t, hwhole⟩ := t.stepArbiter ready
  exact ⟨_, t.stepEngine.stepInbox.stepDemux, rfl, rfl, rfl, hwhole⟩

/-- A flit that is presented to the input is taken if there is room. -/
theorem Traces.push (t : m.Traces u h) (f : Flit) :
    ({ m with input := m.input.push f } : DebugModule ModuleBackend).Traces u
      { h with received := h.received ++ if m.input.ready then [f] else [] } := by
  refine { t with
    depth := (Buffer.push_depth ..).trans t.depth
    received := ?_
    input := t.input.push f
    demux := t.demux.congr fun way => by cases way <;> rfl }
  rw [Buffer.flits_push, ← List.append_assoc, ← t.received]

/-- Event packets may be queued at any time. -/
theorem Traces.enqueue (t : m.Traces u h) {packets : List Packet}
    (hclass : ∀ p ∈ packets, p.packetClass = .event) :
    ({ m with outbox := m.outbox.enqueueAll packets } : DebugModule ModuleBackend).Traces u
      { h with emitted := h.emitted ++ packets } := by
  refine { t with
    demux := t.demux.congr fun way => by cases way <;> rfl
    events := ?_
    eventClass := fun p hp => ?_
    arbiter := t.arbiter.mono rfl fun i hshown => ?_ }
  · rw [Packet.stream_append, t.events, PacketWriter.flits_enqueueAll, List.append_assoc]
  · rcases List.mem_append.mp hp with hp | hp
    · exact t.eventClass p hp
    · exact hclass p hp
  · rcases i with _ | _ | i
    · exact hshown
    · have hpeek : m.outbox.flits.head?.isSome = true := by
        simpa [Arbiter.headOf, PacketWriter.peek] using hshown
      simp [Arbiter.headOf, PacketWriter.peek, hpeek]
    · exact hshown

/-- The event that a module emits for a payload, unless it refuses to. -/
def emission? (m : DebugModule ModuleBackend) (payload : List Word) : Option Event :=
  match (m.emitEvent payload).2 with
  | .ok packets =>
    some { src := m.address, dest := m.engine.registers.eventDest, kind := .eventLast, payload,
           packets }
  | .error _ => none

/-- One less than the payload words that the module puts into an event packet. -/
def eventLimit (m : DebugModule ModuleBackend) : Nat := maxPayloadWords m.maxPacketLen - 1

theorem fragment_succ (dest src : Address) (payload : List Word) (limit : Nat) :
    fragment dest src payload (limit + 1) =
      .ok (fragments dest src .eventLast limit payload) := rfl

/-- A module queues the packets of the event that it emits, and changes nothing else. -/
theorem emitEvent_eq (m : DebugModule ModuleBackend) (payload : List Word) :
    (m.emitEvent payload).1 =
        { m with
          outbox := m.outbox.enqueueAll
            ((m.emission? payload).toList.flatMap (Event.split m.eventLimit)) } ∧
      ∀ e ∈ m.emission? payload, e.src = m.address ∧ e.SplitBy m.eventLimit := by
  unfold emission? DebugModule.emitEvent eventLimit
  cases m.isActive with
  | false => exact ⟨rfl, by simp⟩
  | true =>
    cases maxPayloadWords m.maxPacketLen with
    | zero => exact ⟨rfl, fun e he => by cases he⟩
    | succ limit =>
      simp only [if_true, fragment_succ, Option.toList_some, List.flatMap_singleton,
        Nat.add_sub_cancel]
      refine ⟨rfl, fun e he => ?_⟩
      rw [← Option.some.inj he]
      exact ⟨rfl, rfl, rfl⟩

theorem Traces.emitEvent (t : m.Traces u h) (payload : List Word) :
    (m.emitEvent payload).1.Traces u
      { h with
        emitted := h.emitted ++
          (m.emission? payload).toList.flatMap (Event.split m.eventLimit) } := by
  rw [(m.emitEvent_eq payload).1]
  refine t.enqueue fun p hp => ?_
  obtain ⟨e, -, hp⟩ := List.mem_flatMap.mp hp
  exact (mem_fragments hp).2.2

theorem Traces.takeInbox (t : m.Traces u h) : m.takeInbox.1.Traces u h :=
  { t with demux := t.demux.congr fun way => by cases way <;> rfl }

/-- The module, with a buffer of some depth at its input, has taken the flits
`received` and sent the flits `sent`. -/
def Flows (u : RegisterUnit) (m : DebugModule ModuleBackend) (depth : Nat)
    (received sent : List Flit) : Prop :=
  ∃ h, m.Traces u h ∧ h.depth = depth ∧ h.received = received ∧ h.outgoing.whole = sent

variable {depth : Nat} {received sent : List Flit}

theorem Flows.tick (hflows : m.Flows u depth received sent) (ready : Bool) :
    (m.tick ready).1.Flows u depth received
      (sent ++ if ready then (m.tick ready).2.toList else []) := by
  obtain ⟨h, t, rfl, rfl, rfl⟩ := hflows
  obtain ⟨h', t', hdepth, hreceived, -, hsent⟩ := t.tick ready
  exact ⟨h', t', hdepth, hreceived, hsent⟩

theorem Flows.push (hflows : m.Flows u depth received sent) (f : Flit) :
    ({ m with input := m.input.push f } : DebugModule ModuleBackend).Flows u depth
      (received ++ if m.input.ready then [f] else []) sent := by
  obtain ⟨h, t, hdepth, rfl, hsent⟩ := hflows
  exact ⟨_, t.push f, hdepth, rfl, hsent⟩

theorem Flows.emitEvent (hflows : m.Flows u depth received sent) (payload : List Word) :
    (m.emitEvent payload).1.Flows u depth received sent := by
  obtain ⟨h, t, hdepth, hreceived, hsent⟩ := hflows
  exact ⟨_, t.emitEvent payload, hdepth, hreceived, hsent⟩

theorem Flows.takeInbox (hflows : m.Flows u depth received sent) :
    m.takeInbox.1.Flows u depth received sent := by
  obtain ⟨h, t, hdepth, hreceived, hsent⟩ := hflows
  exact ⟨h, t.takeInbox, hdepth, hreceived, hsent⟩

/-! ## What a module answers -/

/-- What goes to the engine asks for the same answers as the whole stream. -/
theorem answers_routed (u : RegisterUnit) (fs : List Flit) :
    u.answers (Packet.ofStream (Demux.routed .register fs)) = u.answers (Packet.ofStream fs) := by
  rw [← u.answers_filter, Demux.requests_routed, u.answers_filter]

/-- The engine has been given the register packets that the module took, so
it answers requests among these. -/
theorem Traces.answers_served_prefix (t : m.Traces u h) :
    u.answers (Packet.ofStream h.served) <+: u.answers (Packet.ofStream h.received) := by
  have hserved : h.served <+: Demux.routed .register h.crossed :=
    (List.prefix_append _ _).trans (t.demux.out_prefix .register)
  have hcrossed : h.crossed <+: h.received := by
    rw [t.received]
    exact List.prefix_append _ _
  refine (u.answers_prefix (Packet.ofStream_prefix hserved)).trans ?_
  rw [answers_routed]
  exact u.answers_prefix (Packet.ofStream_prefix hcrossed)

theorem Traces.answered_prefix (t : m.Traces u h) :
    h.answered <+: Packet.stream (u.answers (Packet.ofStream h.received)) :=
  t.engine.sent_prefix.trans (Packet.stream_prefix t.answers_served_prefix)

theorem Traces.share_outbox_prefix (t : m.Traces u h) :
    h.outgoing.share 1 <+: Packet.stream h.emitted := by
  rw [t.events]
  exact List.prefix_append _ _

theorem Traces.share_engine_prefix (t : m.Traces u h) :
    h.outgoing.share 0 <+: Packet.stream (u.answers (Packet.ofStream h.received)) := by
  refine List.IsPrefix.trans ?_ t.answered_prefix
  rw [t.answers]
  exact List.prefix_append _ _

/-- Nothing but answers leaves the engine. -/
theorem Traces.register_of_mem_runsOf (t : m.Traces u h) {r : List Flit}
    (hr : r ∈ h.outgoing.runsOf 0) : ∃ p, Packet.ofFlits r = .ok p ∧ p.packetClass = .register := by
  obtain ⟨p, hp, hflits⟩ := t.arbiter.sound.exists_packet t.share_engine_prefix hr
  obtain ⟨request, -, u', hanswer⟩ := RegisterUnit.exists_of_mem_answers hp
  exact ⟨p, hflits, hanswer.packetClass⟩

/-- Nothing but event packets leaves the outbox. -/
theorem Traces.packetClass_of_mem_runsOf (t : m.Traces u h) {j : Nat} (hj : j ≠ 0) {r : List Flit}
    (hr : r ∈ h.outgoing.runsOf j) : ∃ p, Packet.ofFlits r = .ok p ∧ p.packetClass = .event := by
  have hlt : j < 2 := t.arbiter.lt_of_mem_runsOf hr
  obtain rfl : j = 1 := by omega
  obtain ⟨p, hp, hflits⟩ := t.arbiter.sound.exists_packet t.share_outbox_prefix hr
  exact ⟨p, hflits, t.eventClass p hp⟩

/-- A packet that has left a module answers a request, or it was queued as one of an event. -/
theorem Traces.mem_sent (t : m.Traces u h) {p : Packet}
    (hp : p ∈ Packet.ofStream h.outgoing.whole) :
    p ∈ u.answers (Packet.ofStream h.received) ∨ p ∈ h.emitted := by
  obtain ⟨source, hp⟩ := t.arbiter.sound.exists_share hp
  rcases source with _ | _ | source
  · have hread := Packet.ofStream_prefix t.share_engine_prefix
    rw [Packet.ofStream_stream] at hread
    exact .inl (hread.subset hp)
  · have hread := Packet.ofStream_prefix t.share_outbox_prefix
    rw [Packet.ofStream_stream] at hread
    exact .inr (hread.subset hp)
  · rw [t.arbiter.share_of_le (Nat.le_add_left 2 source)] at hp
    cases hp

/-- The register packets that have left a module are those that its engine has sent. -/
theorem Traces.register_whole (t : m.Traces u h) :
    (Packet.ofStream h.outgoing.whole).filter (fun p => p.packetClass = .register) =
      (Packet.ofStream (h.outgoing.share 0)).filter fun p => p.packetClass = .register := by
  refine t.arbiter.sound.filter_whole _ 0 fun j hj r hr q hq => ?_
  obtain ⟨p, hp, hclass⟩ := t.packetClass_of_mem_runsOf hj hr
  obtain rfl := Except.ok.inj (hp.symm.trans hq)
  simp [hclass]

theorem filter_answers (u : RegisterUnit) (ps : List Packet) :
    (u.answers ps).filter (fun p => p.packetClass = .register) = u.answers ps := by
  refine List.filter_eq_self.mpr fun answer hmem => ?_
  obtain ⟨request, -, u', hanswer⟩ := RegisterUnit.exists_of_mem_answers hmem
  simpa using hanswer.packetClass

/-- The register packets that have left a module are the answers of its
register unit to the packets that it took, or the first of them. -/
theorem Flows.answers_prefix (hflows : m.Flows u depth received sent) :
    (Packet.ofStream sent).filter (fun p => p.packetClass = .register) <+:
      u.answers (Packet.ofStream received) := by
  obtain ⟨h, t, -, rfl, rfl⟩ := hflows
  rw [t.register_whole, ← filter_answers u]
  have hread := Packet.ofStream_prefix t.share_engine_prefix
  rw [Packet.ofStream_stream] at hread
  exact hread.filter _

/-- The engine of an idle module was given every register packet that the module took. -/
theorem Traces.answers_served_of_isIdle (t : m.Traces u h) (hidle : m.isIdle = true) :
    u.answers (Packet.ofStream h.served) = u.answers (Packet.ofStream h.received) := by
  obtain ⟨hinput, hdemux, htoEngine, -⟩ := isIdle_iff.mp hidle
  obtain ⟨hheld, hshort, hout⟩ := t.demux.header hdemux
  have hserved : h.served = Demux.routed .register h.crossed := by
    rw [Demux.routed_of_short (hheld ▸ hshort), ← hout .register, ModuleHistory.sentTo, htoEngine]
    exact (List.append_nil _).symm
  have hcrossed : h.received = h.crossed := by
    rw [t.received, hinput, List.append_nil]
  rw [hserved, answers_routed, hcrossed]

/-- An idle module has answered every request that it took. -/
theorem Flows.answers_of_isIdle (hflows : m.Flows u depth received sent) (hidle : m.isIdle = true) :
    (Packet.ofStream sent).filter (fun p => p.packetClass = .register) =
      u.answers (Packet.ofStream received) := by
  obtain ⟨h, t, -, rfl, rfl⟩ := hflows
  obtain ⟨-, -, -, -, ⟨hphase, hreader⟩, hfromEngine, -⟩ := isIdle_iff.mp hidle
  have hengine : m.engine.isIdle = true := Engine.isIdle_iff.mpr ⟨hphase, hreader⟩
  have hshare : h.outgoing.share 0 = Packet.stream (u.answers (Packet.ofStream h.served)) := by
    rw [← t.engine.sent_of_isIdle hengine, t.answers, hfromEngine]
    exact (List.append_nil _).symm
  rw [t.register_whole, hshare, Packet.ofStream_stream, t.answers_served_of_isIdle hidle,
    filter_answers]

end DebugModule

end ProbeNet
