import ProbeNet.Proofs.Module.Runs
import ProbeNet.Proofs.Stream.Exclusivity

/-!
# The packets that go past the engine

A module gives every packet that is no register packet to the reader of its inbox.  Each of them
is a packet that the reader can decode, so there are two things that can become of it: it goes
into the inbox, where someone may take it, or the inbox is full and it is counted.

* An `InboxRun` keeps what the engine and the reader of the inbox have been given, what the reader
  said in each step, and what someone has taken out of the inbox.
* `Traces.reading` says what a step of the reader comes to, `InboxRun.Records` is what every action
  keeps, and `bypass_loses_only_what_it_counts` is what a run comes to.
-/

namespace ProbeNet

open Register

/-! ## One step of the reader -/

/-- What the reader of an inbox says in a step, and how many packets the inbox holds then. -/
structure InboxReading where
  held : Nat
  outcome : ReadOutcome

namespace InboxReading

/-- The packet that has been read and finds room in the inbox. -/
def admitted? (x : InboxReading) : Option Packet :=
  if x.held < inboxDepth then x.outcome.packet? else none

theorem length_admitted? (x : InboxReading) (hroom : x.held ≤ inboxDepth) :
    x.held + x.admitted?.toList.length ≤ inboxDepth := by
  have hone : x.outcome.packet?.toList.length ≤ 1 := by
    cases x.outcome.packet? <;> simp
  unfold admitted?
  split
  · omega
  · simpa using hroom

/-- The packet that has been read and finds the inbox full. -/
def refused? (x : InboxReading) : Option Packet :=
  if x.held < inboxDepth then none else x.outcome.packet?

/-- A packet is admitted or refused. -/
theorem length_split (x : InboxReading) :
    x.admitted?.toList.length + x.refused?.toList.length = x.outcome.packet?.toList.length := by
  by_cases hroom : x.held < inboxDepth <;> simp [admitted?, refused?, hroom]

end InboxReading

namespace DebugModule

/-- What the reader of the inbox says in the next step. -/
def reading (m : DebugModule ModuleBackend) : InboxReading where
  held := m.inbox.length
  outcome := (m.inboxReader.tick m.toInbox.slot).2

variable {u : RegisterUnit} {m : DebugModule ModuleBackend} {h : ModuleHistory}

/-- What arrives at the inbox are whole packets. -/
theorem Traces.exists_packet_of_bypass (t : m.Traces u h) {f : Flit}
    (hslot : m.toInbox.slot = some f) (hlast : f.last = true) :
    ∃ p, Packet.ofFlits (m.inboxReader.flits ++ [f]) = .ok p := by
  have hsent : h.bypassed ++ [f] <+: Demux.routed .bypass h.crossed := by
    have hout := t.demux.out_prefix .bypass
    rwa [ModuleHistory.sentTo, hslot] at hout
  have hrun : m.inboxReader.flits ++ [f] ∈ Demux.routedRuns .bypass h.crossed := by
    rw [← Demux.runs_routed, t.inbox]
    refine (Flit.runs_prefix hsent).subset ?_
    rw [Flit.runs_snoc, if_pos hlast]
    exact List.mem_append_right _ (List.mem_singleton_self _)
  exact Demux.exists_packet_of_bypass (by simpa using (List.mem_filter.mp hrun).2)

/-- The reader reads the next run that goes past the engine, and this run is a packet. -/
theorem Traces.reading (t : m.Traces u h) :
    (Flit.runs (h.bypassed ++ m.toInbox.slot.toList)).map Packet.ofFlits =
        (Flit.runs h.bypassed).map Packet.ofFlits ++
          m.reading.outcome.packet?.toList.map .ok ∧
      ∀ e, m.reading.outcome ≠ .malformed e := by
  unfold DebugModule.reading
  cases hslot : m.toInbox.slot with
  | none =>
    simp only [PacketReader.tick]
    split <;> simp [ReadOutcome.packet?]
  | some f =>
    rw [Option.toList_some, Flit.runs_snoc, ← t.inbox]
    cases hlast : f.last with
    | false => simp [PacketReader.tick, hlast, ReadOutcome.packet?]
    | true =>
      obtain ⟨p, hp⟩ := t.exists_packet_of_bypass hslot hlast
      simp [PacketReader.tick, hlast, hp, ReadOutcome.packet?]

/-- A packet that has been read goes into the inbox if there is room, and is counted if not. -/
theorem stepInbox_inbox (m : DebugModule ModuleBackend) :
    m.stepInbox.inbox = m.inbox ++ m.reading.admitted?.toList ∧
      m.stepInbox.inboxDropped = m.inboxDropped + m.reading.refused?.toList.length := by
  unfold stepInbox DebugModule.reading InboxReading.admitted? InboxReading.refused?
  rcases m.inboxReader.tick m.toInbox.slot with ⟨reader, outcome⟩
  cases outcome with
  | packet p =>
    by_cases hroom : m.inbox.length < inboxDepth <;>
      simp [deliver, hroom, ReadOutcome.packet?]
  | _ => simp [ReadOutcome.packet?]

theorem stepDemux_inbox (m : DebugModule ModuleBackend) :
    m.stepDemux.inbox = m.inbox ∧ m.stepDemux.inboxDropped = m.inboxDropped := by
  obtain ⟨toEngine, toInbox, hstep, -, -⟩ := m.stepDemux_eq
  rw [hstep]
  exact ⟨rfl, rfl⟩

/-- A step of a module ends with what the reader of the inbox has read. -/
theorem tick_inbox (m : DebugModule ModuleBackend) (ready : Bool) :
    let x := (m.stepArbiter ready).1.stepEngine.reading
    x.held = m.inbox.length ∧ (m.tick ready).1.inbox = m.inbox ++ x.admitted?.toList ∧
      (m.tick ready).1.inboxDropped = m.inboxDropped + x.refused?.toList.length := by
  obtain ⟨hinbox, hdropped⟩ := (m.stepArbiter ready).1.stepEngine.stepInbox_inbox
  obtain ⟨hinbox', hdropped'⟩ := (m.stepArbiter ready).1.stepEngine.stepInbox.stepDemux_inbox
  exact ⟨rfl, hinbox'.trans hinbox, hdropped'.trans hdropped⟩

/-- The reader of an idle module has been given everything that goes past the engine. -/
theorem Traces.bypassed_of_isIdle (t : m.Traces u h) (hidle : m.isIdle = true) :
    h.bypassed = Demux.routed .bypass h.received := by
  obtain ⟨hinput, hdemux, -, htoInbox, -⟩ := isIdle_iff.mp hidle
  obtain ⟨hheld, hshort, hout⟩ := t.demux.header hdemux
  have hcrossed : h.received = h.crossed := by
    rw [t.received, hinput, List.append_nil]
  rw [hcrossed, Demux.routed_of_short (hheld ▸ hshort), ← hout .bypass, ModuleHistory.sentTo,
    htoInbox]
  exact (List.append_nil _).symm

/-- What the parts behind the demultiplexer have been given goes their way. -/
theorem Traces.given_prefix (t : m.Traces u h) :
    h.served <+: Demux.routed .register h.received ∧
      h.bypassed <+: Demux.routed .bypass h.received := by
  have hcrossed : h.crossed <+: h.received := by
    rw [t.received]
    exact List.prefix_append _ _
  have hsent : ∀ way, h.sentTo m way <+: Demux.routed way h.received := fun way =>
    (t.demux.out_prefix way).trans (Demux.routed_prefix way hcrossed)
  exact ⟨(List.prefix_append _ _).trans (hsent .register),
    (List.prefix_append _ _).trans (hsent .bypass)⟩

theorem inbox_of_initial {address : Address} {config : EngineConfig} {backend : ModuleBackend}
    {bufferDepth maxPacketLen : Nat}
    (hm : DebugModule.initial address config backend bufferDepth maxPacketLen = .ok m) :
    m.inbox = [] ∧ m.inboxDropped = 0 := by
  obtain ⟨rfl, -⟩ := of_initial hm
  exact ⟨rfl, rfl⟩

end DebugModule

/-! ## Runs -/

/-- A module, the flits that its input has taken, and what its parts behind the demultiplexer have
made of them. -/
structure InboxRun where
  module : DebugModule ModuleBackend
  received : List Flit := []
  /-- The flits that the engine has taken. -/
  served : List Flit := []
  /-- The flits that the reader of the inbox has taken. -/
  bypassed : List Flit := []
  /-- What the reader of the inbox said in each step. -/
  readings : List InboxReading := []
  /-- The packets that someone has taken out of the inbox. -/
  collected : List Packet := []

namespace InboxRun

/-- The run after one more action.  In a step the engine acts after the arbiter, and the reader of
the inbox after the engine. -/
def act (r : InboxRun) : ModuleAction → InboxRun
  | .tick ready =>
    let atEngine := (r.module.stepArbiter ready).1
    let atInbox := atEngine.stepEngine
    { r with
      module := (r.module.tick ready).1
      served := r.served ++ if atEngine.engineStep.taken then atEngine.toEngine.slot.toList else []
      bypassed := r.bypassed ++ atInbox.toInbox.slot.toList
      readings := r.readings ++ [atInbox.reading] }
  | .push f =>
    { r with
      module := { r.module with input := r.module.input.push f }
      received := r.received ++ if r.module.input.ready then [f] else [] }
  | .emit payload => { r with module := (r.module.emitEvent payload).1 }
  | .takeInbox =>
    { r with module := r.module.takeInbox.1, collected := r.collected ++ r.module.takeInbox.2 }

/-- The run of some actions on a module. -/
def ofActions (m : DebugModule ModuleBackend) (actions : List ModuleAction) : InboxRun :=
  actions.foldl act { module := m }

/-- The packets that the reader of the inbox has read. -/
def packets (r : InboxRun) : List Packet := r.readings.filterMap fun x => x.outcome.packet?

/-! ## What a run keeps -/

/-- What the run says of its module is what has passed the places inside it, and everything that
the reader of the inbox has read is accounted for. -/
structure Records (r : InboxRun) (u : RegisterUnit) (h : ModuleHistory) : Prop where
  traces : r.module.Traces u h
  received : h.received = r.received
  served : h.served = r.served
  bypassed : h.bypassed = r.bypassed
  read : (Flit.runs r.bypassed).map Packet.ofFlits = r.packets.map .ok
  admitted : r.collected ++ r.module.inbox = r.readings.filterMap InboxReading.admitted?
  refused : r.module.inboxDropped = (r.readings.filterMap InboxReading.refused?).length
  room : r.module.inbox.length ≤ inboxDepth
  wellFormed : ∀ x ∈ r.readings, ∀ e, x.outcome ≠ .malformed e

variable {r : InboxRun} {u : RegisterUnit} {h : ModuleHistory}

/-- What the last entry gives comes last. -/
theorem filterMap_snoc {α β : Type} (f : α → Option β) (xs : List α) (x : α) :
    (xs ++ [x]).filterMap f = xs.filterMap f ++ (f x).toList := by
  rw [List.filterMap_append]
  cases hx : f x <;> simp [hx]

theorem Records.tick (hr : r.Records u h) (ready : Bool) :
    ∃ h', (r.act (.tick ready)).Records u h' := by
  obtain ⟨outgoing, t, -⟩ := hr.traces.stepArbiter ready
  -- The arbiter and the engine act before the reader and touch nothing that it looks at.
  have tEngine := t.stepEngine
  obtain ⟨hread, hgood⟩ := tEngine.reading
  obtain ⟨hheld, hinbox, hdropped⟩ := r.module.tick_inbox ready
  have hbefore : (Flit.runs h.bypassed).map Packet.ofFlits = r.packets.map .ok := by
    rw [hr.bypassed, hr.read]
  refine ⟨_, tEngine.stepInbox.stepDemux, hr.received, ?_, ?_, ?_, ?_, ?_, ?_, ?_⟩
  · show h.served ++ _ = r.served ++ _
    rw [hr.served]
  · show h.bypassed ++ _ = r.bypassed ++ _
    rw [hr.bypassed]
  · show (Flit.runs (r.bypassed ++ _)).map _ = (List.filterMap _ (r.readings ++ [_])).map _
    rw [← hr.bypassed, filterMap_snoc, List.map_append]
    exact hread.trans (congrArg (· ++ _) hbefore)
  · show r.collected ++ _ = List.filterMap _ (r.readings ++ [_])
    rw [filterMap_snoc, ← hr.admitted, List.append_assoc]
    exact congrArg (r.collected ++ ·) hinbox
  · show _ = (List.filterMap _ (r.readings ++ [_])).length
    rw [filterMap_snoc, List.length_append, ← hr.refused]
    exact hdropped
  · show (r.module.tick ready).1.inbox.length ≤ _
    rw [hinbox, List.length_append, ← hheld]
    exact InboxReading.length_admitted? _ (hheld ▸ hr.room)
  · intro x hx
    rcases List.mem_append.mp hx with hx | hx
    · exact hr.wellFormed x hx
    · rw [List.mem_singleton.mp hx]
      exact hgood

/-- Every action keeps the account. -/
theorem Records.act (hr : r.Records u h) (action : ModuleAction) :
    ∃ h', (r.act action).Records u h' := by
  cases action with
  | tick ready => exact hr.tick ready
  | push f =>
    refine ⟨_, { hr with traces := hr.traces.push f, received := ?_ }⟩
    show h.received ++ _ = r.received ++ _
    rw [hr.received]
  | emit payload =>
    have hemit := (r.module.emitEvent_eq payload).1
    refine ⟨_, { hr with
      traces := hr.traces.emitEvent payload
      admitted := ?_
      refused := ?_
      room := ?_ }⟩
    · show r.collected ++ (r.module.emitEvent payload).1.inbox = _
      rw [hemit]
      exact hr.admitted
    · show (r.module.emitEvent payload).1.inboxDropped = _
      rw [hemit]
      exact hr.refused
    · show (r.module.emitEvent payload).1.inbox.length ≤ _
      rw [hemit]
      exact hr.room
  | takeInbox =>
    refine ⟨h, { hr with
      traces := hr.traces.takeInbox
      admitted := ?_
      room := Nat.zero_le _ }⟩
    show (r.collected ++ r.module.inbox) ++ [] = _
    rw [List.append_nil]
    exact hr.admitted

/-- A run of a module that was just built is on record. -/
theorem records_ofActions {address : Address} {config : EngineConfig} {backend : ModuleBackend}
    {bufferDepth maxPacketLen : Nat} {m : DebugModule ModuleBackend}
    (hm : DebugModule.initial address config backend bufferDepth maxPacketLen = .ok m)
    (actions : List ModuleAction) :
    ∃ h, (ofActions m actions).Records (.initial config backend) h := by
  induction actions using List.reverseRecOn with
  | nil =>
    obtain ⟨hinbox, hdropped⟩ := DebugModule.inbox_of_initial hm
    exact ⟨_, (DebugModule.traces_initial hm).1, rfl, rfl, rfl, rfl, hinbox, hdropped,
      (congrArg List.length hinbox).trans_le (Nat.zero_le _), by simp [ofActions]⟩
  | append_singleton actions action ih =>
    obtain ⟨h, hr⟩ := ih
    rw [ofActions, List.foldl_append]
    exact hr.act action

end InboxRun

/-- Take a module that was just built and anything that may happen to it: flits arrive, it takes
steps, it emits events, and someone empties its inbox, at any time.

The reader of the inbox is given the packets that the module has taken whose class bits are there
and not zero, or the first of them, and all when the module is idle.  It can decode each of them.
Those that it has read with room in the inbox have been taken out of the inbox or are in it, in
order; the number of the others is the number of the packets that the module says it has dropped.
The inbox never has more packets than it may.  And the engine is given nothing but packets whose
class bits are zero, or the beginning of one. -/
theorem bypass_loses_only_what_it_counts {address : Address} {config : EngineConfig}
    {backend : ModuleBackend} {bufferDepth maxPacketLen : Nat} {m : DebugModule ModuleBackend}
    (hm : DebugModule.initial address config backend bufferDepth maxPacketLen = .ok m)
    (actions : List ModuleAction) :
    let r := InboxRun.ofActions m actions
    let bypassing := (Flit.runs r.received).filter fun p => (Flit.classBits? p).any (· ≠ 0)
    let registering := (Flit.packets r.received).filter fun p => Flit.classBits? p = some 0
    (Flit.runs r.bypassed <+: bypassing ∧
        (r.module.isIdle = true → Flit.runs r.bypassed = bypassing)) ∧
      (Flit.runs r.bypassed).map Packet.ofFlits = r.packets.map .ok ∧
      r.collected ++ r.module.inbox = r.readings.filterMap InboxReading.admitted? ∧
      r.module.inboxDropped = (r.readings.filterMap InboxReading.refused?).length ∧
      r.module.inbox.length ≤ inboxDepth ∧
      (∀ x ∈ r.readings, ∀ e, x.outcome ≠ .malformed e) ∧
      r.served <+: registering.flatten := by
  intro r bypassing registering
  obtain ⟨h, hr⟩ := InboxRun.records_ofActions hm actions
  obtain ⟨hserved, hbypassed⟩ := hr.traces.given_prefix
  rw [hr.received] at hserved hbypassed
  rw [hr.served, Demux.routed_register] at hserved
  rw [hr.bypassed] at hbypassed
  refine ⟨⟨?_, fun hidle => ?_⟩, hr.read, hr.admitted, hr.refused, hr.room, hr.wellFormed, hserved⟩
  · have hruns := Flit.runs_prefix hbypassed
    rwa [Demux.runs_routed_bypass] at hruns
  · have hall := hr.traces.bypassed_of_isIdle hidle
    rw [hr.received, hr.bypassed] at hall
    rw [hall, Demux.runs_routed_bypass]

/-- A packet without a third word, a request, and then more event packets than the inbox has room
for before somebody takes them. -/
theorem bypass_loses_only_what_it_counts_overflow :
    ∃ m, DebugModule.initial 1 { identity := .standard .memoryAccess 0 }
        (.map (.ofRange 0x200 0x300)) 16 8 = .ok m ∧
      let feed (fs : List Flit) : List ModuleAction :=
        fs.flatMap fun f => [.push f, .tick true, .tick true]
      let read : Packet :=
        { dest := 1, src := 0x3ff, kind := .register (.readRequest .w16), payload := [0x200] }
      let event : Packet := { dest := 1, src := 2, kind := .event .eventLast, payload := [] }
      let r := InboxRun.ofActions m
        (feed (Flit.ofWords [1, 2] ++ read.toFlits ++ Packet.stream (List.replicate 66 event)) ++
          List.replicate 9 (.tick true) ++ [.takeInbox])
      (r.collected.length, r.module.inboxDropped) = (inboxDepth, 2) ∧
        r.collected ++ r.module.inbox = r.readings.filterMap InboxReading.admitted? := by
  have hm : DebugModule.initial 1 { identity := .standard .memoryAccess 0 }
      (ModuleBackend.map (.ofRange 0x200 0x300)) 16 8 = .ok _ := rfl
  refine ⟨_, hm, ?_, (bypass_loses_only_what_it_counts hm _).2.2.1⟩
  decide +kernel

end ProbeNet
