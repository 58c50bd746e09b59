import ProbeNet.Proofs.Engine.Accounting
import ProbeNet.Proofs.Module.Inbox
import ProbeNet.Proofs.Stream.Interleaving

/-!
# The ledger of a module

No packet vanishes in a module.  Every packet that its input has taken is under way in it, or it
is counted: as too short, as a request, as discarded, as put into the inbox, or as refused by it.
Every packet that leaves it was made for a request or is one of an event, and each of both is made
once.

* A `ModuleRecord` keeps what cannot be seen in the flits of a module.
* `DebugModule.Accounts` ties each part of a module to what it has taken, sent and counted.  The
  steps of the parts keep it, and so does whoever uses the module from outside.
* `Accounts.balance` and `Accounts.balance_out` are the two sums, and `Accounts.exists_made` says in
  which order the packets leave.
-/

namespace ProbeNet

open Register

/-- What cannot be seen in the flits of a module. -/
structure ModuleRecord where
  /-- The answers that its engine has made. -/
  answered : List Packet := []
  /-- The packets of the events that it was made to emit. -/
  queued : List Packet := []
  /-- The packets that someone took out of its inbox. -/
  collected : List Packet := []

namespace ModuleRecord

/-- The packets are made of answers and of packets of events, of each the first ones and in
order. -/
def Makes (record : ModuleRecord) (ps : List Packet) : Prop :=
  ∃ answers events, answers <+: record.answered ∧ events <+: record.queued ∧
    Interleaves answers events ps

/-- What the engine (0) and the outbox (1) have to send. -/
def toSend (record : ModuleRecord) : Nat → List Packet
  | 0 => record.answered
  | 1 => record.queued
  | _ => []

variable {record : ModuleRecord} {ps ps' : List Packet}

theorem makes_nil : record.Makes [] := ⟨[], [], List.nil_prefix, List.nil_prefix, .nil⟩

theorem Makes.of_begins (h : record.Makes ps) (hps : ps' <+: ps) : record.Makes ps' := by
  obtain ⟨answers, events, hanswers, hevents, hmade⟩ := h
  obtain ⟨answers', events', hanswers', hevents', hmade'⟩ := hmade.exists_of_prefix hps
  exact ⟨answers', events', hanswers'.trans hanswers, hevents'.trans hevents, hmade'⟩

theorem Makes.mem (h : record.Makes ps) {p : Packet} (hp : p ∈ ps) :
    p ∈ record.answered ∨ p ∈ record.queued := by
  obtain ⟨answers, events, hanswers, hevents, hmade⟩ := h
  exact (List.mem_append.mp (hmade.perm.subset hp)).imp (fun hp => hanswers.subset hp)
    fun hp => hevents.subset hp

end ModuleRecord

namespace DebugModule

/-- The packets that a module queues for an event that it is made to emit; a module that refuses
queues none. -/
def queuedBy (m : DebugModule ModuleBackend) (payload : List Word) : List Packet :=
  if m.isActive then
    (fragment m.engine.registers.eventDest m.address payload
      (maxPayloadWords m.maxPacketLen)).toOption.getD []
  else []

/-- The packets come from the module, and as many are reported. -/
theorem emitEvent_queues (m : DebugModule ModuleBackend) (payload : List Word) :
    (m.emitEvent payload).1 = { m with outbox := m.outbox.enqueueAll (m.queuedBy payload) } ∧
      (m.emitEvent payload).2.toOption.getD 0 = (m.queuedBy payload).length ∧
      ∀ p ∈ m.queuedBy payload, p.src = m.address ∧ p.packetClass = .event := by
  unfold DebugModule.emitEvent queuedBy
  cases m.isActive with
  | false => exact ⟨rfl, rfl, by simp⟩
  | true =>
    cases maxPayloadWords m.maxPacketLen with
    | zero => exact ⟨rfl, rfl, fun p hp => by cases hp⟩
    | succ limit =>
      simp only [if_true, fragment_succ]
      exact ⟨rfl, rfl, fun p hp => (mem_fragments hp).2⟩

/-! ## What is under way and what is counted -/

/-- How many packets are under way in front of the inbox and the counters of the engine.  A
packet is where its last flit is. -/
def inFlight (m : DebugModule ModuleBackend) : Nat :=
  (m.input.flits ++ m.demux.held ++ m.toEngine.slot.toList ++ m.toInbox.slot.toList).countP
    Flit.last + m.engine.phase.unread

/-- How many packets the module has counted or has in its inbox. -/
def settled (m : DebugModule ModuleBackend) : Nat :=
  m.demux.runts + m.engine.stats.requests + m.engine.stats.discarded + m.inbox.length +
    m.inboxDropped

/-- How many packets the module has to send, or to make. -/
def leaving (m : DebugModule ModuleBackend) : Nat :=
  (m.fromEngine.slot.toList ++ m.engine.writer.flits ++ m.outbox.flits).countP Flit.last +
    m.engine.phase.owed

/-- What the parts of the module at address `a` have taken, sent and counted. -/
structure Accounts (u : RegisterUnit) (a : Address) (m : DebugModule ModuleBackend)
    (h : ModuleHistory) (record : ModuleRecord) : Prop where
  traces : m.Traces u h
  demux : m.demux.Tallies h.crossed (h.sentTo m)
  engine : m.engine.Accounts h.served h.answered record.answered
  inbox : h.bypassed.countP Flit.last = m.inbox.length + m.inboxDropped + record.collected.length
  emitted : h.emitted = record.queued
  address : m.address = a
  sources : ∀ p ∈ record.queued, p.src = a

variable {u : RegisterUnit} {a : Address} {m : DebugModule ModuleBackend} {h : ModuleHistory}
  {record : ModuleRecord}

theorem accounts_initial {config : EngineConfig} {backend : ModuleBackend}
    {bufferDepth maxPacketLen : Nat}
    (hm : DebugModule.initial a config backend bufferDepth maxPacketLen = .ok m) :
    m.Accounts (.initial config backend) a { depth := bufferDepth } {} := by
  have haddress := address_of_initial hm
  have htraces := (traces_initial hm).1
  obtain ⟨rfl, -⟩ := of_initial hm
  have hnothing : ({ depth := bufferDepth } : ModuleHistory).sentTo
      { address := a, maxPacketLen, input := .empty bufferDepth .wholePacket,
        engine := .initial config backend } = fun _ => [] := by
    funext way
    cases way <;> rfl
  exact ⟨htraces, hnothing ▸ Demux.tallies_initial, Engine.accounts_initial config backend, rfl,
    rfl, rfl, by simp⟩

/-! ## The parts -/

theorem Accounts.stepArbiter (c : m.Accounts u a h record) (ready : Bool) :
    ∃ outgoing : Passage, (m.stepArbiter ready).1.Accounts u a { h with outgoing } record ∧
      outgoing.whole =
        h.outgoing.whole ++ if ready then (m.stepArbiter ready).2.toList else [] := by
  obtain ⟨outgoing, t, hwhole⟩ := c.traces.stepArbiter ready
  refine ⟨outgoing, ⟨t, ?_, c.engine, c.inbox, c.emitted, c.address, c.sources⟩, hwhole⟩
  rw [ModuleHistory.sentTo_congr rfl rfl rfl rfl]
  exact c.demux

theorem Accounts.stepEngine (c : m.Accounts u a h record) :
    m.stepEngine.Accounts u a (h.afterEngine m)
      { record with answered := record.answered ++ m.engine.answer?.toList } where
  traces := c.traces.stepEngine
  demux := by
    rw [funext (h.sentTo_afterEngine m)]
    exact c.demux
  engine := c.engine.tick m.toEngine.slot m.fromEngine.ready
  inbox := c.inbox
  emitted := c.emitted
  address := c.address
  sources := c.sources

/-- A packet that arrives goes into the inbox, or it is counted as dropped. -/
theorem Traces.stepInbox_counts (t : m.Traces u h) :
    m.stepInbox.inbox.length + m.stepInbox.inboxDropped =
      m.inbox.length + m.inboxDropped + m.toInbox.slot.toList.countP Flit.last := by
  obtain ⟨hinbox, hdropped⟩ := m.stepInbox_inbox
  have hread := congrArg List.length t.reading.1
  have hsplit := m.reading.length_split
  simp only [List.length_map, List.length_append, Flit.length_runs, List.countP_append] at hread
  rw [hinbox, hdropped, List.length_append]
  omega

theorem Accounts.stepInbox (c : m.Accounts u a h record) :
    m.stepInbox.Accounts u a (h.afterInbox m) record := by
  obtain ⟨inbox, dropped, hstep⟩ := m.stepInbox_eq
  have hcounts := c.traces.stepInbox_counts
  have hbefore := c.inbox
  refine ⟨c.traces.stepInbox, ?_, ?_, ?_, c.emitted, ?_, c.sources⟩
  · rw [funext (h.sentTo_afterInbox m), hstep]
    exact c.demux
  · rw [hstep]
    exact c.engine
  · show (h.bypassed ++ m.toInbox.slot.toList).countP Flit.last = _
    rw [List.countP_append]
    omega
  · rw [hstep]
    exact c.address

theorem Accounts.stepDemux (c : m.Accounts u a h record) :
    m.stepDemux.Accounts u a (h.afterDemux m) record := by
  obtain ⟨toEngine, toInbox, hstep, -, -⟩ := m.stepDemux_eq
  have hdemux := c.demux.tick m.input.peek m.wayReady
  refine ⟨c.traces.stepDemux, ?_, ?_, ?_, c.emitted, ?_, c.sources⟩
  · rw [funext (h.sentTo_afterDemux m), hstep]
    exact hdemux
  · rw [hstep]
    exact c.engine
  · rw [hstep]
    exact c.inbox
  · rw [hstep]
    exact c.address

/-! ## The module from outside -/

/-- A whole step of a module. -/
theorem Accounts.tick (c : m.Accounts u a h record) (ready : Bool) :
    ∃ h', (m.tick ready).1.Accounts u a h'
        { record with answered := record.answered ++ m.engine.answer?.toList } ∧
      h'.received = h.received ∧
      h'.outgoing.whole = h.outgoing.whole ++ if ready then (m.tick ready).2.toList else [] := by
  obtain ⟨outgoing, c, hwhole⟩ := c.stepArbiter ready
  exact ⟨_, c.stepEngine.stepInbox.stepDemux, rfl, hwhole⟩

theorem Accounts.push (c : m.Accounts u a h record) (f : Flit) :
    ({ m with input := m.input.push f } : DebugModule ModuleBackend).Accounts u a
      { h with received := h.received ++ if m.input.ready then [f] else [] } record := by
  refine { c with
    traces := c.traces.push f
    demux := ?_ }
  rw [ModuleHistory.sentTo_congr rfl rfl rfl rfl]
  exact c.demux

theorem Accounts.emitEvent (c : m.Accounts u a h record) (payload : List Word) :
    (m.emitEvent payload).1.Accounts u a { h with emitted := h.emitted ++ m.queuedBy payload }
      { record with queued := record.queued ++ m.queuedBy payload } := by
  obtain ⟨hstep, -, hqueued⟩ := m.emitEvent_queues payload
  rw [hstep]
  refine { c with
    traces := c.traces.enqueue fun p hp => (hqueued p hp).2
    demux := ?_
    emitted := by rw [c.emitted]
    sources := fun p hp => ?_ }
  · rw [ModuleHistory.sentTo_congr rfl rfl rfl rfl]
    exact c.demux
  · rcases List.mem_append.mp hp with hp | hp
    · exact c.sources p hp
    · exact (hqueued p hp).1.trans c.address

theorem Accounts.takeInbox (c : m.Accounts u a h record) :
    m.takeInbox.1.Accounts u a h
      { record with collected := record.collected ++ m.takeInbox.2 } := by
  refine { c with
    traces := c.traces.takeInbox
    demux := ?_
    inbox := ?_ }
  · rw [ModuleHistory.sentTo_congr rfl rfl rfl rfl]
    exact c.demux
  · rw [c.inbox, List.length_append]
    show m.inbox.length + m.inboxDropped + record.collected.length =
      0 + m.inboxDropped + (record.collected.length + m.inbox.length)
    omega

/-- The module at address `a` has taken the flits `received` and sent the flits `sent`, and what
is on record of it is so. -/
def Accounted (m : DebugModule ModuleBackend) (a : Address) (record : ModuleRecord)
    (received sent : List Flit) : Prop :=
  ∃ u h, m.Accounts u a h record ∧ h.received = received ∧ h.outgoing.whole = sent

section Accounted

variable {received sent : List Flit}

theorem Accounted.tick (hm : m.Accounted a record received sent) (ready : Bool) :
    (m.tick ready).1.Accounted a
      { record with answered := record.answered ++ m.engine.answer?.toList } received
      (sent ++ if ready then (m.tick ready).2.toList else []) := by
  obtain ⟨u, h, c, rfl, rfl⟩ := hm
  obtain ⟨h', c', hreceived, hsent⟩ := c.tick ready
  exact ⟨u, h', c', hreceived, hsent⟩

theorem Accounted.push (hm : m.Accounted a record received sent) (f : Flit) :
    ({ m with input := m.input.push f } : DebugModule ModuleBackend).Accounted a record
      (received ++ if m.input.ready then [f] else []) sent := by
  obtain ⟨u, h, c, rfl, hsent⟩ := hm
  exact ⟨u, _, c.push f, rfl, hsent⟩

theorem Accounted.emitEvent (hm : m.Accounted a record received sent) (payload : List Word) :
    (m.emitEvent payload).1.Accounted a
      { record with queued := record.queued ++ m.queuedBy payload } received sent := by
  obtain ⟨u, h, c, hreceived, hsent⟩ := hm
  exact ⟨u, _, c.emitEvent payload, hreceived, hsent⟩

theorem Accounted.takeInbox (hm : m.Accounted a record received sent) :
    m.takeInbox.1.Accounted a { record with collected := record.collected ++ m.takeInbox.2 }
      received sent := by
  obtain ⟨u, h, c, hreceived, hsent⟩ := hm
  exact ⟨u, h, c.takeInbox, hreceived, hsent⟩

end Accounted

/-! ## The sums -/

/-- Every packet that the module has taken is under way, counted, or collected. -/
theorem Accounts.balance (c : m.Accounts u a h record) :
    h.received.countP Flit.last = m.inFlight + m.settled + record.collected.length := by
  have hcrossed := c.demux.marks
  have hpackets := c.engine.packets
  have hinbox := c.inbox
  rw [c.traces.received]
  simp only [ModuleHistory.sentTo, List.countP_append] at hcrossed ⊢
  simp only [inFlight, settled, List.countP_append]
  omega

/-- Every packet that has left the module, or has to, was made for a request that is counted or
is one of an event. -/
theorem Accounts.balance_out (c : m.Accounts u a h record) :
    h.outgoing.whole.countP Flit.last + m.leaving =
      m.engine.stats.requests + record.queued.length := by
  have hwhole : h.outgoing.whole.countP Flit.last =
      (h.outgoing.share 0).countP Flit.last + (h.outgoing.share 1).countP Flit.last := by
    have hsum := c.traces.arbiter.sound.length_runs_whole c.traces.arbiter.sources
    simpa [List.range_succ, Flit.length_runs] using hsum
  have hanswers := congrArg (List.countP Flit.last) c.engine.answers
  rw [Packet.countP_stream, c.traces.answers] at hanswers
  have hevents := congrArg (List.countP Flit.last) c.traces.events
  rw [Packet.countP_stream, c.emitted] at hevents
  have hrequests := c.engine.requests
  simp only [List.countP_append] at hanswers hevents
  simp only [leaving, List.countP_append]
  omega

/-- Nothing is under way in an idle module, and it has sent all that it had to. -/
theorem Accounts.of_isIdle (c : m.Accounts u a h record) (hidle : m.isIdle = true) :
    m.inFlight = 0 ∧ m.leaving = 0 ∧ m.engine.writer.flits = [] := by
  obtain ⟨hinput, hdemux, htoEngine, htoInbox, ⟨hphase, -⟩, hfromEngine, houtbox, -⟩ :=
    isIdle_iff.mp hidle
  obtain ⟨done, hserving⟩ := c.traces.engine
  have hwriter := hserving.writer_nil (by simp [hphase])
  refine ⟨?_, ?_, hwriter⟩
  · simp [inFlight, Demux.held, hinput, hdemux, htoEngine, htoInbox, hphase]
  · simp [leaving, hfromEngine, hwriter, houtbox, hphase]

/-! ## The packets that leave -/

/-- The answers of the engine are those of the register unit to what the module has taken, or
the first of them. -/
theorem Accounts.answered_prefix (c : m.Accounts u a h record) :
    record.answered <+: u.answers (Packet.ofStream h.received) := by
  obtain ⟨done, hserving⟩ := c.traces.engine
  have hmade : record.answered = u.answers done := by
    rw [← Packet.ofStream_stream record.answered, c.engine.answers, hserving.answered,
      Packet.ofStream_stream]
  refine List.IsPrefix.trans ?_ c.traces.answers_served_prefix
  rw [hmade, hserving.packets]
  exact u.answers_prefix (List.prefix_append _ _)

/-- What each of the two sources has sent begins what it has to send. -/
theorem Accounts.share_prefix (c : m.Accounts u a h record) (i : Nat) :
    h.outgoing.share i <+: Packet.stream (record.toSend i) := by
  match i with
  | 0 =>
    rw [ModuleRecord.toSend, c.engine.answers, c.traces.answers, List.append_assoc]
    exact List.prefix_append _ _
  | 1 =>
    rw [ModuleRecord.toSend, ← c.emitted, c.traces.events]
    exact List.prefix_append _ _
  | i + 2 =>
    rw [c.traces.arbiter.share_of_le (Nat.le_add_left 2 i)]
    exact List.nil_prefix

theorem Accounts.share_of_isIdle (c : m.Accounts u a h record) (hidle : m.isIdle = true) (i : Nat) :
    h.outgoing.share i = Packet.stream (record.toSend i) := by
  obtain ⟨-, -, -, -, -, hslot, houtbox, -⟩ := isIdle_iff.mp hidle
  obtain ⟨-, -, hwriter⟩ := c.of_isIdle hidle
  match i with
  | 0 =>
    rw [ModuleRecord.toSend, c.engine.answers, c.traces.answers, hslot, hwriter]
    simp
  | 1 => rw [ModuleRecord.toSend, ← c.emitted, c.traces.events, houtbox, List.append_nil]
  | i + 2 => exact c.traces.arbiter.share_of_le (Nat.le_add_left 2 i)

/-- What leaves the module is made of its answers and of the packets of its events, or begins
such packets; and it is all of them when the module is idle. -/
theorem Accounts.exists_made (c : m.Accounts u a h record) :
    ∃ all, record.Makes all ∧ h.outgoing.whole <+: Packet.stream all ∧
      (m.isIdle = true → Interleaves record.answered record.queued all ∧
        h.outgoing.whole = Packet.stream all) := by
  obtain ⟨all, hwhole, hparts, hsent⟩ := c.traces.arbiter.sound.exists_packets c.share_prefix
  -- Whatever is not of the engine is of the outbox.
  have hother : (all.filter fun x => !decide (x.1 = 0)) = all.filter fun x => x.1 = 1 := by
    refine List.filter_congr fun x hx => ?_
    have hmem : x.2 ∈ record.toSend x.1 :=
      (hparts x.1).subset (List.mem_map.mpr ⟨x, List.mem_filter.mpr ⟨hx, by simp⟩, rfl⟩)
    match x with
    | (0, p) => rfl
    | (1, p) => rfl
    | (i + 2, p) => cases hmem
  have hmade := (Interleaves.of_filter (fun x => decide (x.1 = 0)) all).map Prod.snd
  rw [hother] at hmade
  refine ⟨_, ⟨_, _, hparts 0, hparts 1, hmade⟩, hwhole, fun hidle => ?_⟩
  obtain ⟨hflits, hpackets⟩ := hsent (c.share_of_isIdle hidle)
  rw [hpackets 0, hpackets 1] at hmade
  exact ⟨hmade, hflits⟩

end DebugModule

end ProbeNet
