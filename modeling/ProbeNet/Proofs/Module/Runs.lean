import ProbeNet.Proofs.Module.Flow

/-!
# Runs of a module

A module sends the events that it was made to emit, each split into packets, in
the order in which it was told to.  Whatever else it does, its answers and the
packets that it takes included, cannot be seen in them.

* A `ModuleRun` keeps account of what a module is told, takes and sends.
* `ModuleRun.Records` ties it to the places inside the module, and
  `ModuleRun.Records.sends_emitted` reads the events off what has been sent.
* `DebugModule.Ran` says that one module has become another in a run.
-/

namespace ProbeNet

open Register

namespace DebugModule

/-- A step does not change where a module is and how long its packets may be. -/
theorem tick_fields (m : DebugModule ModuleBackend) (ready : Bool) :
    (m.tick ready).1.address = m.address ∧ (m.tick ready).1.eventLimit = m.eventLimit := by
  obtain ⟨inbox, dropped, hinbox⟩ := (m.stepArbiter ready).1.stepEngine.stepInbox_eq
  obtain ⟨toEngine, toInbox, hdemux, -, -⟩ :=
    (m.stepArbiter ready).1.stepEngine.stepInbox.stepDemux_eq
  rw [hinbox] at hdemux
  have htick : (m.tick ready).1 = (m.stepArbiter ready).1.stepEngine.stepInbox.stepDemux := rfl
  rw [htick, hinbox, hdemux]
  exact ⟨rfl, rfl⟩

end DebugModule

/-! ## Runs -/

/-- What happens to a module. -/
inductive ModuleAction where
  /-- It takes a step, with an output that is ready or not. -/
  | tick (ready : Bool)
  /-- A flit is presented to its input. -/
  | push (f : Flit)
  /-- It is told to emit an event. -/
  | emit (payload : List Word)
  /-- Someone empties its inbox. -/
  | takeInbox

/-- A module, the flits that its input has taken, those that it has sent, and
the events that it has emitted. -/
structure ModuleRun where
  module : DebugModule ModuleBackend
  received : List Flit := []
  sent : List Flit := []
  emitted : List Event := []

namespace ModuleRun

/-- The run after one more action.  A flit moves if there is room for it. -/
def act (r : ModuleRun) : ModuleAction → ModuleRun
  | .tick ready =>
    { r with
      module := (r.module.tick ready).1
      sent := r.sent ++ if ready then (r.module.tick ready).2.toList else [] }
  | .push f =>
    { r with
      module := { r.module with input := r.module.input.push f }
      received := r.received ++ if r.module.input.ready then [f] else [] }
  | .emit payload =>
    { r with
      module := (r.module.emitEvent payload).1
      emitted := r.emitted ++ (r.module.emission? payload).toList }
  | .takeInbox => { r with module := r.module.takeInbox.1 }

/-- The run of some actions on a module. -/
def ofActions (m : DebugModule ModuleBackend) (actions : List ModuleAction) : ModuleRun :=
  actions.foldl act { module := m }

theorem ofActions_snoc (m : DebugModule ModuleBackend) (actions : List ModuleAction)
    (action : ModuleAction) :
    ofActions m (actions ++ [action]) = (ofActions m actions).act action := by
  rw [ofActions, List.foldl_append]
  rfl

/-! ## What a run keeps -/

/-- An action does not change where the module is and how long its packets may be. -/
theorem act_fields (r : ModuleRun) (action : ModuleAction) :
    (r.act action).module.address = r.module.address ∧
      (r.act action).module.eventLimit = r.module.eventLimit := by
  cases action with
  | tick ready => exact r.module.tick_fields ready
  | emit payload =>
    show (r.module.emitEvent payload).1.address = _ ∧ (r.module.emitEvent payload).1.eventLimit = _
    rw [(r.module.emitEvent_eq payload).1]
    exact ⟨rfl, rfl⟩
  | _ => exact ⟨rfl, rfl⟩

/-- What the run says of its module is what has passed the places inside it.  The registers
of the module were `u` at the start. -/
structure Records (r : ModuleRun) (u : RegisterUnit) (h : ModuleHistory) : Prop where
  traces : r.module.Traces u h
  received : h.received = r.received
  sent : h.outgoing.whole = r.sent
  emitted : h.emitted = r.emitted.flatMap (Event.split r.module.eventLimit)
  events : ∀ e ∈ r.emitted, e.src = r.module.address ∧ e.SplitBy r.module.eventLimit

variable {r : ModuleRun} {u : RegisterUnit} {h : ModuleHistory}

theorem Records.tick (hr : r.Records u h) (ready : Bool) :
    ∃ h', (r.act (.tick ready)).Records u h' := by
  obtain ⟨h', t, -, hreceived, hemitted, hsent⟩ := hr.traces.tick ready
  obtain ⟨haddress, hlimit⟩ := r.act_fields (.tick ready)
  refine ⟨h', t, hreceived.trans hr.received, ?_, ?_, ?_⟩
  · rw [hsent, hr.sent]
    rfl
  · rw [hemitted, hr.emitted, hlimit]
    rfl
  · rw [haddress, hlimit]
    exact hr.events

theorem Records.emit (hr : r.Records u h) (payload : List Word) :
    ∃ h', (r.act (.emit payload)).Records u h' := by
  have hevent := (r.module.emitEvent_eq payload).2
  obtain ⟨haddress, hlimit⟩ := r.act_fields (.emit payload)
  refine ⟨_, hr.traces.emitEvent payload, hr.received, hr.sent, ?_, ?_⟩
  · show h.emitted ++ _ = (r.emitted ++ (r.module.emission? payload).toList).flatMap _
    rw [List.flatMap_append, hlimit, hr.emitted]
  · rw [haddress, hlimit]
    intro e he
    rcases List.mem_append.mp he with he | he
    · exact hr.events e he
    · exact hevent e (Option.mem_toList.mp he)

/-- Each action goes on record. -/
theorem Records.act (hr : r.Records u h) (action : ModuleAction) :
    ∃ h', (r.act action).Records u h' := by
  cases action with
  | tick ready => exact hr.tick ready
  | push f =>
    refine ⟨_, hr.traces.push f, ?_, hr.sent, hr.emitted, hr.events⟩
    show h.received ++ _ = r.received ++ _
    rw [hr.received]
  | emit payload => exact hr.emit payload
  | takeInbox =>
    exact ⟨h, hr.traces.takeInbox, hr.received, hr.sent, hr.emitted, hr.events⟩

/-- A run of a module that was just built is on record. -/
theorem records_ofActions {address : Address} {config : EngineConfig} {backend : ModuleBackend}
    {bufferDepth maxPacketLen : Nat} {m : DebugModule ModuleBackend}
    (hm : DebugModule.initial address config backend bufferDepth maxPacketLen = .ok m)
    (actions : List ModuleAction) :
    ∃ h, (ofActions m actions).Records (.initial config backend) h := by
  induction actions using List.reverseRecOn with
  | nil => exact ⟨_, (DebugModule.traces_initial hm).1, rfl, rfl, rfl, by simp [ofActions]⟩
  | append_singleton actions action ih =>
    obtain ⟨h, hr⟩ := ih
    rw [ofActions_snoc]
    exact hr.act action

/-! ## What a run sends -/

/-- The event packets that have left a module are those of the events that it has emitted,
or the first of them; and they are all when the module is idle. -/
theorem Records.sends_emitted (hr : r.Records u h) :
    (Packet.ofStream r.sent).filter (fun p => p.packetClass = .event) <+:
        r.emitted.flatMap (Event.split r.module.eventLimit) ∧
      (r.module.isIdle = true →
        (Packet.ofStream r.sent).filter (fun p => p.packetClass = .event) =
          r.emitted.flatMap (Event.split r.module.eventLimit)) := by
  have t := hr.traces
  rw [← hr.sent, ← hr.emitted]
  have hshare : (Packet.ofStream h.outgoing.whole).filter (fun p => p.packetClass = .event) =
      (Packet.ofStream (h.outgoing.share 1)).filter (fun p => p.packetClass = .event) := by
    refine t.arbiter.sound.filter_whole _ 1 fun j hj run hrun q hq => ?_
    have hlt : j < 2 := t.arbiter.lt_of_mem_runsOf hrun
    obtain rfl : j = 0 := by omega
    obtain ⟨p, hp, hclass⟩ := t.register_of_mem_runsOf hrun
    obtain rfl := Except.ok.inj (hp.symm.trans hq)
    simp [hclass]
  have hall : h.emitted.filter (fun p => p.packetClass = .event) = h.emitted :=
    List.filter_eq_self.mpr fun p hp => by simpa using t.eventClass p hp
  rw [hshare]
  refine ⟨?_, fun hidle => ?_⟩
  · have hread := (Packet.ofStream_prefix t.share_outbox_prefix).filter fun p =>
      p.packetClass = .event
    rw [Packet.ofStream_stream, hall] at hread
    exact hread
  · obtain ⟨-, -, -, -, -, -, hempty, -⟩ := DebugModule.isIdle_iff.mp hidle
    have hwhole : h.outgoing.share 1 = Packet.stream h.emitted := by
      rw [t.events, hempty, List.append_nil]
    rw [hwhole, Packet.ofStream_stream, hall]

end ModuleRun

/-! ## What becomes of a module -/

namespace DebugModule

/-- The module `m` has become of `m₀` in a run in which it has sent `sent` and emitted
`emitted`. -/
def Ran (m₀ m : DebugModule ModuleBackend) (sent : List Flit) (emitted : List Event) : Prop :=
  ∃ actions, (ModuleRun.ofActions m₀ actions).module = m ∧
    (ModuleRun.ofActions m₀ actions).sent = sent ∧
    (ModuleRun.ofActions m₀ actions).emitted = emitted

variable {m₀ m : DebugModule ModuleBackend} {sent : List Flit} {emitted : List Event}

theorem Ran.refl (m : DebugModule ModuleBackend) : m.Ran m [] [] := ⟨[], rfl, rfl, rfl⟩

/-- A run may go on. -/
theorem Ran.act (h : m₀.Ran m sent emitted) (action : ModuleAction) :
    ∃ received, let r := (ModuleRun.mk m received sent emitted).act action
      m₀.Ran r.module r.sent r.emitted := by
  obtain ⟨actions, rfl, rfl, rfl⟩ := h
  refine ⟨(ModuleRun.ofActions m₀ actions).received, actions ++ [action], ?_⟩
  rw [ModuleRun.ofActions_snoc]
  exact ⟨rfl, rfl, rfl⟩

theorem Ran.tick (h : m₀.Ran m sent emitted) (ready : Bool) :
    m₀.Ran (m.tick ready).1 (sent ++ if ready then (m.tick ready).2.toList else []) emitted := by
  obtain ⟨_, hran⟩ := h.act (.tick ready)
  exact hran

theorem Ran.push (h : m₀.Ran m sent emitted) (f : Flit) :
    m₀.Ran { m with input := m.input.push f } sent emitted := by
  obtain ⟨_, hran⟩ := h.act (.push f)
  exact hran

theorem Ran.emitEvent (h : m₀.Ran m sent emitted) (payload : List Word) :
    m₀.Ran (m.emitEvent payload).1 sent (emitted ++ (m.emission? payload).toList) := by
  obtain ⟨_, hran⟩ := h.act (.emit payload)
  exact hran

theorem Ran.takeInbox (h : m₀.Ran m sent emitted) : m₀.Ran m.takeInbox.1 sent emitted := by
  obtain ⟨_, hran⟩ := h.act .takeInbox
  exact hran

theorem address_of_initial {address : Address} {config : EngineConfig} {backend : ModuleBackend}
    {bufferDepth maxPacketLen : Nat}
    (hm : DebugModule.initial address config backend bufferDepth maxPacketLen = .ok m) :
    m.address = address := by
  rw [(of_initial hm).1]

/-- A module stays where it is. -/
theorem Ran.address (h : m₀.Ran m sent emitted) : m.address = m₀.address := by
  obtain ⟨actions, rfl, -, -⟩ := h
  induction actions using List.reverseRecOn with
  | nil => rfl
  | append_singleton actions action ih =>
    rw [ModuleRun.ofActions_snoc, (ModuleRun.act_fields _ action).1, ih]

theorem Ran.eventLimit (h : m₀.Ran m sent emitted) : m.eventLimit = m₀.eventLimit := by
  obtain ⟨actions, rfl, -, -⟩ := h
  induction actions using List.reverseRecOn with
  | nil => rfl
  | append_singleton actions action ih =>
    rw [ModuleRun.ofActions_snoc, (ModuleRun.act_fields _ action).2, ih]

/-- A module splits events so that their packets are as long as the link allows. -/
theorem eventLimit_of_initial {address : Address} {config : EngineConfig}
    {backend : ModuleBackend} {bufferDepth maxPacketLen : Nat}
    (hm : DebugModule.initial address config backend bufferDepth maxPacketLen = .ok m) :
    headerWords + (m.eventLimit + 1) = maxPacketLen := by
  obtain ⟨rfl, hpayload, -⟩ := of_initial hm
  show headerWords + (maxPayloadWords maxPacketLen - 1 + 1) = maxPacketLen
  unfold maxPayloadWords headerWords at *
  omega

/-- A packet that a module has sent is the answer of its register unit to a request, or one of an
event and not too long. -/
theorem Ran.mem_sent {address : Address} {config : EngineConfig} {backend : ModuleBackend}
    {bufferDepth maxPacketLen : Nat}
    (hm : DebugModule.initial address config backend bufferDepth maxPacketLen = .ok m₀)
    (h : m₀.Ran m sent emitted) {p : Packet} (hp : p ∈ Packet.ofStream sent) :
    (∃ ps, p ∈ (RegisterUnit.initial config backend).answers ps) ∨
      p.packetClass = .event ∧ p.lenWords ≤ maxPacketLen := by
  have hlimit := h.eventLimit
  obtain ⟨actions, rfl, rfl, rfl⟩ := h
  obtain ⟨history, hr⟩ := ModuleRun.records_ofActions hm actions
  rw [← hr.sent] at hp
  rcases hr.traces.mem_sent hp with hanswer | hevent
  · exact .inl ⟨_, hanswer⟩
  · rw [hr.emitted] at hevent
    obtain ⟨e, -, hsplit⟩ := List.mem_flatMap.mp hevent
    have hlength := length_of_mem_fragments hsplit
    rw [hlimit] at hlength
    refine .inr ⟨(mem_fragments hsplit).2.2, ?_⟩
    rw [← eventLimit_of_initial hm, Packet.lenWords]
    omega

/-- The event packets that a module has sent are those of the events that it has emitted, or the
first of them; and they are all when the module is idle. -/
theorem Ran.sends_emitted {address : Address} {config : EngineConfig} {backend : ModuleBackend}
    {bufferDepth maxPacketLen : Nat}
    (hm : DebugModule.initial address config backend bufferDepth maxPacketLen = .ok m₀)
    (h : m₀.Ran m sent emitted) :
    (∀ e ∈ emitted, e.SplitBy m.eventLimit) ∧
      (Packet.ofStream sent).filter (fun p => p.packetClass = .event) <+:
        emitted.flatMap (Event.split m.eventLimit) ∧
      (m.isIdle = true → (Packet.ofStream sent).filter (fun p => p.packetClass = .event) =
        emitted.flatMap (Event.split m.eventLimit)) := by
  obtain ⟨actions, rfl, rfl, rfl⟩ := h
  obtain ⟨history, hr⟩ := ModuleRun.records_ofActions hm actions
  exact ⟨fun e he => (hr.events e he).2, hr.sends_emitted⟩

end DebugModule

end ProbeNet
