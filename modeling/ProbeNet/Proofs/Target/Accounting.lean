import ProbeNet.Proofs.Subnet.Egress
import ProbeNet.Target.Simulated

/-!
# What a simulated target counts

A target feeds the packets of the host into its subnet and reads back what comes out.  It
refuses packets that are too long, so that its router drops none; what it reads are whole
packets, which it sends in the order in which they leave; and when nothing is under way its
counters agree with those of the subnet: `target_accounts`.

* `SimulatedTarget.stepActions` is what one step does to the subnet.
* A `TargetRun` is a target with the packets that it has sent, and the states that it has
  stepped from, in which one sees which flits have entered the subnet and left it.
* `TargetRun.Drives` ties a run to a ledger of the subnet, and each command keeps it.
-/

namespace ProbeNet

open Register

/-! ## Streams of short packets -/

/-- No packet is too long in what begins a stream of packets that are short enough. -/
theorem Subnet.oversized_of_fits {limit : Nat} {ps : List Packet} {fs : List Flit}
    (h : fs <+: Packet.stream ps) (hps : ∀ p ∈ ps, p.lenWords ≤ limit) :
    Subnet.oversized limit fs = [] := by
  refine List.filter_eq_nil_iff.mpr fun r hr => ?_
  have hfits : r.length ≤ limit := by
    rcases List.mem_append.mp hr with hr | hr
    · obtain ⟨p, hp, -, rfl⟩ := Packet.exists_of_mem_runs h hr
      rw [Packet.length_toFlits]
      exact hps p hp
    · obtain rfl := List.mem_singleton.mp hr
      rcases (Packet.stream_cases h).2.2 with hnothing | ⟨next, hnext, hpart, -⟩
      · rw [hnothing]
        exact Nat.zero_le limit
      · have hshort := hps next (hnext.subset (by simp))
        rw [← Packet.length_toFlits] at hshort
        exact Nat.le_trans hpart.length_le hshort
  simpa using hfits

/-- A reader calls malformed what is a run and no packet. -/
theorem PacketReader.error_of_malformed {r : PacketReader} {input : Option Flit} {e : PacketError}
    (h : (r.tick input).2 = .malformed e) :
    ∃ f, input = some f ∧ f.last = true ∧ Packet.ofFlits (r.flits ++ [f]) = .error e := by
  cases input with
  | none =>
    simp only [tick] at h
    split at h <;> cases h
  | some f =>
    cases hlast : f.last with
    | false => simp [tick, hlast] at h
    | true =>
      cases hread : Packet.ofFlits (r.flits ++ [f]) with
      | ok p => simp [tick, hlast, hread] at h
      | error e' =>
        simp only [tick, hlast, hread, if_true, ReadOutcome.malformed.injEq] at h
        exact ⟨f, rfl, hlast, hread.trans (congrArg Except.error h)⟩

/-! ## One step -/

namespace SimulatedTarget

variable (t : SimulatedTarget)

/-- The flit that enters the subnet in the next step. -/
def entering? : Option Flit := if t.subnet.ingressReady then t.pending.head? else none

/-- The flit that leaves the subnet in the next step. -/
def leaving? : Option Flit := t.inject.subnet.step.peekEgress

/-- What the reader says in the next step. -/
def reading : ReadOutcome := (t.reader.tick t.leaving?).2

/-- What happens to the subnet in the next step. -/
def stepActions : List SubnetAction := t.entering?.toList.map .push ++ [.step, .pop]

/-- Feeding the subnet concerns the flits that wait and the subnet only. -/
theorem inject_fields :
    t.inject.reader = t.reader ∧ t.inject.packetsIn = t.packetsIn ∧
      t.inject.packetsRefused = t.packetsRefused ∧ t.inject.packetsOut = t.packetsOut ∧
      t.entering?.toList ++ t.inject.pending = t.pending := by
  unfold inject entering?
  split
  · rename_i hpending
    simp [hpending]
  · rename_i f rest hpending
    split
    · exact ⟨rfl, rfl, rfl, rfl, by simp [hpending]⟩
    · exact ⟨rfl, rfl, rfl, rfl, by simp⟩

/-- What a step does besides what it does to the subnet. -/
theorem step_fields :
    t.step.1.subnet = t.inject.subnet.step.popEgress ∧
      t.entering?.toList ++ t.step.1.pending = t.pending ∧
      t.step.1.reader = (t.reader.tick t.leaving?).1 ∧ t.step.2 = t.reading.packet? ∧
      t.step.1.packetsIn = t.packetsIn ∧ t.step.1.packetsRefused = t.packetsRefused ∧
      t.step.1.packetsOut = t.packetsOut + t.step.2.toList.length := by
  obtain ⟨hreader, hin, hrefused, hout, hpending⟩ := t.inject_fields
  simp only [step, extract, reading, leaving?, hreader]
  cases (t.reader.tick t.inject.subnet.step.peekEgress).2 with
  | packet p => exact ⟨rfl, hpending, rfl, rfl, hin, hrefused, congrArg (· + 1) hout⟩
  | pending => exact ⟨rfl, hpending, rfl, rfl, hin, hrefused, hout⟩
  | timedOut => exact ⟨rfl, hpending, rfl, rfl, hin, hrefused, hout⟩
  | malformed e => exact ⟨rfl, hpending, rfl, rfl, hin, hrefused, hout⟩

/-- In the ledger of the subnet a step is a flit that enters, if one does, a step of the subnet
and a flit that leaves, if one does. -/
theorem foldl_stepActions {l : SubnetLedger} (hl : l.subnet = t.subnet) :
    (t.stepActions.foldl SubnetLedger.act l).subnet = t.step.1.subnet ∧
      (t.stepActions.foldl SubnetLedger.act l).accepted = l.accepted ++ t.entering?.toList ∧
      (t.stepActions.foldl SubnetLedger.act l).popped = l.popped ++ t.leaving?.toList ∧
      (t.stepActions.foldl SubnetLedger.act l).emitted = l.emitted := by
  rw [t.step_fields.1]
  unfold stepActions leaving? inject entering?
  split
  · rename_i hready
    cases hpending : t.pending with
    | nil =>
      refine ⟨?_, ?_, ?_, rfl⟩
      · show l.subnet.step.popEgress = t.subnet.step.popEgress
        rw [hl]
      · exact (List.append_nil _).symm
      · show l.popped ++ l.subnet.step.peekEgress.toList = _
        rw [hl]
    | cons f rest =>
      refine ⟨?_, ?_, ?_, rfl⟩
      · show (l.subnet.pushIngress f).step.popEgress = (t.subnet.pushIngress f).step.popEgress
        rw [hl]
      · show l.accepted ++ (if l.subnet.ingressReady then [f] else []) = _
        rw [hl, hready]
        rfl
      · show l.popped ++ (l.subnet.pushIngress f).step.peekEgress.toList = _
        rw [hl]
  · rename_i hbusy
    refine ⟨?_, (List.append_nil _).symm, ?_, rfl⟩
    · show l.subnet.step.popEgress = _
      rw [hl]
      cases t.pending <;> rfl
    · show l.popped ++ l.subnet.step.peekEgress.toList = _
      rw [hl]
      cases t.pending <;> rfl

end SimulatedTarget

/-! ## Runs -/

/-- What happens to a target. -/
inductive TargetCommand where
  /-- A packet of the host comes in. -/
  | accept (p : Packet)
  /-- A module is made to emit an event. -/
  | emit (a : Address) (payload : List Word)
  /-- The target takes steps until nothing is under way, at most so many. -/
  | burst (n : Nat)

def TargetCommand.accepted? : TargetCommand → Option Packet
  | accept p => some p
  | emit _ _ | burst _ => none

namespace SimulatedTarget

/-- The states from which a burst takes its steps. -/
def burstStates : Nat → SimulatedTarget → List SimulatedTarget
  | 0, _ => []
  | n + 1, t => t :: if t.step.1.isQuiet then [] else burstStates n t.step.1

end SimulatedTarget

/-- A target with what it has done. -/
structure TargetRun where
  target : SimulatedTarget
  /-- The packets that were sent to the host, the oldest first. -/
  sent : List Packet := []
  /-- The states from which steps were taken. -/
  steps : List SimulatedTarget := []
  /-- How many packets the calls have reported that emit events. -/
  reported : Nat := 0

namespace TargetRun

def act (r : TargetRun) : TargetCommand → TargetRun
  | .accept p => { r with target := r.target.accept p }
  | .emit a payload =>
    { r with
      target := (r.target.emitEvent a payload).1
      reported := r.reported + (r.target.emitEvent a payload).2.toOption.getD 0 }
  | .burst n =>
    { r with
      target := (r.target.burst n).1
      sent := r.sent ++ (r.target.burst n).2
      steps := r.steps ++ r.target.burstStates n }

def ofCommands (s : Subnet) (restUs : Nat) (commands : List TargetCommand) : TargetRun :=
  commands.foldl act { target := .initial s restUs }

/-- The flits that have entered the subnet. -/
def entered (r : TargetRun) : List Flit := r.steps.filterMap SimulatedTarget.entering?

/-- The flits that have left the subnet. -/
def left (r : TargetRun) : List Flit := r.steps.filterMap SimulatedTarget.leaving?

/-- The run after one more step. -/
def step (r : TargetRun) : TargetRun :=
  { r with
    target := r.target.step.1
    sent := r.sent ++ r.target.step.2.toList
    steps := r.steps ++ [r.target] }

theorem entered_step (r : TargetRun) :
    r.step.entered = r.entered ++ r.target.entering?.toList := by
  show (r.steps ++ [r.target]).filterMap _ = _
  rw [List.filterMap_append]
  cases h : r.target.entering? <;> simp [entered, h]

theorem left_step (r : TargetRun) : r.step.left = r.left ++ r.target.leaving?.toList := by
  show (r.steps ++ [r.target]).filterMap _ = _
  rw [List.filterMap_append]
  cases h : r.target.leaving? <;> simp [left, h]

/-- A burst without steps does nothing. -/
theorem act_burst_zero (r : TargetRun) : r.act (.burst 0) = r := by
  simp [act, SimulatedTarget.burst, SimulatedTarget.burstStates]

/-- A burst is a step and, unless nothing is under way then, another burst. -/
theorem act_burst_succ (r : TargetRun) (n : Nat) :
    r.act (.burst (n + 1)) =
      if r.step.target.isQuiet then r.step else r.step.act (.burst n) := by
  cases hquiet : r.target.step.1.isQuiet with
  | true => simp [act, step, SimulatedTarget.burst, SimulatedTarget.burstStates, hquiet]
  | false => simp [act, step, SimulatedTarget.burst, SimulatedTarget.burstStates, hquiet]

/-! ### What a run keeps -/

/-- The run has been given the packets `given`, and the ledger `l` of its subnet is right. -/
structure Drives (limit : Nat) (given : List Packet) (l : SubnetLedger) (r : TargetRun) : Prop where
  subnet : l.subnet = r.target.subnet
  accepted : l.accepted = r.entered
  popped : l.popped = r.left
  emitted : l.emitted = r.reported
  admitted : r.entered ++ r.target.pending =
    Packet.stream (given.filter fun p => p.lenWords ≤ limit)
  packetsIn : r.target.packetsIn = (given.filter fun p => p.lenWords ≤ limit).length
  refused : r.target.packetsRefused = (given.filter fun p => limit < p.lenWords).length
  reader : r.target.reader.flits = Flit.openRun r.left
  sent : r.sent = Packet.ofStream r.left
  packetsOut : r.target.packetsOut = r.sent.length
  wellFormed : ∀ t ∈ r.steps, ∀ e, t.reading ≠ .malformed e

variable {limit : Nat} {given : List Packet} {l : SubnetLedger} {r : TargetRun}

theorem Drives.accept (d : r.Drives limit given l) (hlimit : l.subnet.maxPacketLen = limit)
    (p : Packet) : (r.act (.accept p)).Drives limit (given ++ [p]) l := by
  have hsubnet : r.target.subnet.maxPacketLen = limit := by rw [← d.subnet, hlimit]
  by_cases hfits : p.lenWords ≤ limit
  · have haccept : r.target.accept p =
        { r.target with
          packetsIn := r.target.packetsIn + 1
          pending := r.target.pending ++ p.toFlits } := by
      simp only [SimulatedTarget.accept, Packet.checkLen, hsubnet, if_pos hfits]
    have hadmitted : (given ++ [p]).filter (fun p => p.lenWords ≤ limit) =
        given.filter (fun p => p.lenWords ≤ limit) ++ [p] := by
      simp [hfits]
    have hrefused : (given ++ [p]).filter (fun p => limit < p.lenWords) =
        given.filter fun p => limit < p.lenWords := by
      simp [hfits]
    simp only [act, haccept]
    refine { d with
      admitted := ?_
      packetsIn := ?_
      refused := by rw [hrefused]; exact d.refused }
    · show r.entered ++ (r.target.pending ++ p.toFlits) = _
      rw [hadmitted, Packet.stream_append, Packet.stream_singleton, ← d.admitted, List.append_assoc]
    · show r.target.packetsIn + 1 = _
      rw [hadmitted, List.length_append, d.packetsIn]
      rfl
  · have haccept : r.target.accept p =
        { r.target with packetsRefused := r.target.packetsRefused + 1 } := by
      simp only [SimulatedTarget.accept, Packet.checkLen, hsubnet, if_neg hfits]
    have hadmitted : (given ++ [p]).filter (fun p => p.lenWords ≤ limit) =
        given.filter fun p => p.lenWords ≤ limit := by
      simp [hfits]
    have hrefused : (given ++ [p]).filter (fun p => limit < p.lenWords) =
        given.filter (fun p => limit < p.lenWords) ++ [p] := by
      simp [Nat.not_le.mp hfits]
    simp only [act, haccept]
    refine { d with
      admitted := by rw [hadmitted]; exact d.admitted
      packetsIn := by rw [hadmitted]; exact d.packetsIn
      refused := ?_ }
    show r.target.packetsRefused + 1 = _
    rw [hrefused, List.length_append, d.refused]
    rfl

theorem Drives.emit (d : r.Drives limit given l) (a : Address) (payload : List Word) :
    (r.act (.emit a payload)).Drives limit given (l.act (.emit a payload)) := by
  have hreported : (r.target.emitEvent a payload).2.toOption.getD 0 =
      (l.subnet.emitEvent a payload).2.toOption.getD 0 := by
    rw [d.subnet]
    simp only [SimulatedTarget.emitEvent]
    cases (r.target.subnet.emitEvent a payload).2 <;> rfl
  refine { d with subnet := ?_, accepted := ?_, popped := ?_, emitted := ?_ }
  · show (l.subnet.emitEvent a payload).1 = (r.target.subnet.emitEvent a payload).1
    rw [d.subnet]
  · exact d.accepted
  · exact d.popped
  · show l.emitted + _ = r.reported + _
    rw [hreported, d.emitted]

/-- A step is accounted for; what leaves the subnet begins packets, so the reader never calls it
malformed. -/
theorem Drives.step (d : r.Drives limit given l) {all : List Packet}
    (hall : (r.target.stepActions.foldl SubnetLedger.act l).popped <+: Packet.stream all) :
    r.step.Drives limit given (r.target.stepActions.foldl SubnetLedger.act l) := by
  obtain ⟨hsubnet, haccepted, hpopped, hemitted⟩ := r.target.foldl_stepActions d.subnet
  obtain ⟨-, hpending, hreader, hsent, hin, hrefused, hout⟩ := r.target.step_fields
  have hentered : r.step.entered = r.entered ++ r.target.entering?.toList := r.entered_step
  have hleft : r.step.left = r.left ++ r.target.leaving?.toList := r.left_step
  refine ⟨hsubnet, ?_, ?_, hemitted.trans d.emitted, ?_, hin.trans d.packetsIn,
    hrefused.trans d.refused, ?_, ?_, ?_, ?_⟩
  · rw [haccepted, hentered, d.accepted]
  · rw [hpopped, hleft, d.popped]
  · rw [hentered, List.append_assoc]
    exact (congrArg (r.entered ++ ·) hpending).trans d.admitted
  · rw [hleft]
    exact (congrArg PacketReader.flits hreader).trans (PacketReader.flits_tick d.reader _)
  · rw [hleft, PacketReader.packet?_tick d.reader, ← d.sent]
    exact congrArg (fun p : Option Packet => r.sent ++ p.toList) hsent
  · show r.target.step.1.packetsOut = (r.sent ++ r.target.step.2.toList).length
    rw [hout, d.packetsOut, List.length_append]
  · intro t ht e hmalformed
    rcases List.mem_append.mp ht with ht | ht
    · exact d.wellFormed t ht e hmalformed
    · obtain rfl := List.mem_singleton.mp ht
      obtain ⟨f, hleaving, hlast, herror⟩ := PacketReader.error_of_malformed hmalformed
      rw [hpopped, hleaving, Option.toList_some, d.popped] at hall
      have hrun : Flit.openRun r.left ++ [f] ∈ Flit.runs (r.left ++ [f]) := by
        rw [Flit.runs_snoc, if_pos hlast]
        exact List.mem_append_right _ (List.mem_singleton_self _)
      obtain ⟨p, -, hread, -⟩ := Packet.exists_of_mem_runs hall hrun
      rw [d.reader, hread] at herror
      cases herror

/-! ### Whole runs -/

variable {link : LinkSettings} {settings : TargetSettings} {backends : List MapBackend}
  {s : Subnet}

/-- A burst is accounted for, whenever it ends. -/
theorem Drives.burst (hs : Subnet.withBackends link settings backends = .ok s) (n : Nat)
    {actions : List SubnetAction} (d : r.Drives limit given (SubnetLedger.ofActions s actions)) :
    ∃ actions', (r.act (.burst n)).Drives limit given (SubnetLedger.ofActions s actions') := by
  -- On the steps that are left of the burst.
  induction n generalizing r actions with
  | zero =>
    rw [act_burst_zero]
    exact ⟨actions, d⟩
  | succ n ih =>
    have hlater : SubnetLedger.ofActions s (actions ++ r.target.stepActions) =
        r.target.stepActions.foldl SubnetLedger.act (SubnetLedger.ofActions s actions) :=
      List.foldl_append
    obtain ⟨taken, merged, b⟩ := SubnetLedger.balanced hs (actions ++ r.target.stepActions)
    obtain ⟨all, hall, -⟩ := b.exists_packets (Subnet.nodes_of_withBackends hs).1
    rw [hlater] at hall
    have hstep := d.step hall
    rw [← hlater] at hstep
    rw [act_burst_succ]
    split
    · exact ⟨_, hstep⟩
    · exact ih hstep

theorem drives_initial (s : Subnet) (restUs limit : Nat) :
    (ofCommands s restUs []).Drives limit [] (SubnetLedger.ofActions s []) :=
  ⟨rfl, rfl, rfl, rfl, rfl, rfl, rfl, rfl, rfl, rfl, nofun⟩

/-- Every run has a ledger. -/
theorem exists_drives (hs : Subnet.withBackends link settings backends = .ok s) (restUs : Nat)
    (commands : List TargetCommand) :
    ∃ actions, (ofCommands s restUs commands).Drives link.maxPacketLen
      (commands.filterMap TargetCommand.accepted?) (SubnetLedger.ofActions s actions) := by
  induction commands using List.reverseRecOn with
  | nil => exact ⟨[], drives_initial s restUs _⟩
  | append_singleton commands command ih =>
    obtain ⟨actions, d⟩ := ih
    rw [ofCommands, List.foldl_append, List.filterMap_append]
    cases command with
    | accept p =>
      obtain ⟨taken, merged, b⟩ := SubnetLedger.balanced hs actions
      exact ⟨actions, d.accept b.router.packetLen p⟩
    | emit a payload =>
      refine ⟨actions ++ [.emit a payload], ?_⟩
      rw [SubnetLedger.ofActions, List.foldl_append]
      show Drives _ (commands.filterMap TargetCommand.accepted? ++ []) _ _
      rw [List.append_nil]
      exact d.emit a payload
    | burst n =>
      show ∃ actions, Drives _ (commands.filterMap TargetCommand.accepted? ++ []) _ _
      rw [List.append_nil]
      exact d.burst hs n

end TargetRun

/-- Take any subnet that can be built, and a target around it that is given packets of the host,
made to emit events and run in bursts, in any order.

The packets that are short enough are taken in and counted, and their flits have entered the
subnet or wait to, in order; all others are counted as refused.  So the router finds no packet too
long.  The reader at the egress never finds anything malformed: what has left the subnet are the
packets that were sent to the host, in this order, and what the reader has of the next one.  And
whenever nothing is under way, all flits have entered the subnet, the packets that were taken in
are those that the router has handed over and those that are for nobody, and the packets that
were sent are as many as all engines have counted requests and as the calls that emit events have
reported packets. -/
theorem target_accounts {link : LinkSettings} {settings : TargetSettings}
    {backends : List MapBackend} {s : Subnet}
    (hs : Subnet.withBackends link settings backends = .ok s) (restUs : Nat)
    (commands : List TargetCommand) :
    let r := TargetRun.ofCommands s restUs commands
    let t := r.target
    let given := commands.filterMap TargetCommand.accepted?
    let admitted := given.filter fun p => p.lenWords ≤ link.maxPacketLen
    (t.packetsIn = admitted.length ∧ r.entered ++ t.pending = Packet.stream admitted ∧
      t.packetsRefused = (given.filter fun p => link.maxPacketLen < p.lenWords).length) ∧
    t.subnet.stats.oversized = 0 ∧
    (∀ u ∈ r.steps, ∀ e, u.reading ≠ .malformed e) ∧
    (r.sent = Packet.ofStream r.left ∧ r.left = Packet.stream r.sent ++ t.reader.flits ∧
      t.packetsOut = r.sent.length) ∧
    (t.isQuiet = true → r.entered = Packet.stream admitted ∧
      t.packetsIn = t.subnet.stats.routed + t.subnet.stats.unroutable ∧
      t.packetsOut =
        (t.subnet.nodes.map fun n => n.module.engine.stats.requests).sum + r.reported) := by
  intro r t given admitted
  obtain ⟨actions, d⟩ := TargetRun.exists_drives hs restUs commands
  obtain ⟨taken, merged, b⟩ := SubnetLedger.balanced hs actions
  obtain ⟨all, hall, -, -, hidle⟩ := b.exists_packets (Subnet.nodes_of_withBackends hs).1
  rw [d.popped] at hall hidle
  have hoversized : t.subnet.counts.oversized = 0 := by
    have hcount := b.router.oversized
    rw [d.subnet] at hcount
    have htaken : taken <+: Packet.stream admitted := by
      have hentered : r.entered <+: Packet.stream admitted := ⟨t.pending, d.admitted⟩
      refine List.IsPrefix.trans ?_ hentered
      rw [← d.accepted, b.router.ingress]
      exact List.prefix_append _ _
    rw [hcount, Subnet.oversized_of_fits htaken fun p hp => by simpa using List.of_mem_filter hp]
    rfl
  refine ⟨⟨d.packetsIn, d.admitted, d.refused⟩, hoversized, d.wellFormed,
    ⟨d.sent, ?_, d.packetsOut⟩, fun hquiet => ?_⟩
  · rw [d.sent, d.reader]
    exact (Packet.stream_cases hall).2.1
  · simp only [SimulatedTarget.isQuiet, Bool.and_eq_true, List.isEmpty_iff] at hquiet
    obtain ⟨⟨hpending, -⟩, hrests⟩ := hquiet
    rw [← d.subnet] at hrests
    have hentered : r.entered = Packet.stream admitted := by
      rw [← d.admitted, hpending, List.append_nil]
    have hrouted := (b.router_of_isIdle hrests).2
    have hleft := b.popped_of_isIdle hrests
    rw [d.subnet] at hrouted hleft
    rw [d.popped, d.emitted, (hidle hrests).1, Packet.runs_stream, List.length_map] at hleft
    rw [d.accepted, hentered, Packet.countP_stream, hoversized, Nat.add_zero] at hrouted
    refine ⟨hentered, d.packetsIn.trans hrouted, ?_⟩
    rw [d.packetsOut, d.sent, (hidle hrests).1, Packet.ofStream_stream]
    exact hleft

/-- Of six packets one is too long, one is for nobody and two are requests.  The first burst is cut
off while the answer to the first request leaves; then the module that has been asked emits an
event. -/
theorem target_accounts_midway :
    ∃ s, Subnet.withBackends {} {} [.ofRange 0x200 0x300, .ofRange 0x200 0x300] = .ok s ∧
      let note : Packet := { dest := 2, src := 0x3ff, kind := .plain 0, payload := [7] }
      let read : Packet :=
        { note with dest := 1, kind := .register (.readRequest .w16), payload := [0x200] }
      let first : List TargetCommand :=
        [.accept read, .accept { note with payload := List.replicate 10 7 }, .burst 22]
      let rest : List TargetCommand :=
        [.emit 1 [5, 6], .accept { note with dest := 0x200 }, .accept { read with dest := 2 },
          .accept note, .accept { note with payload := List.replicate 9 7 }, .burst 64, .burst 64]
      let cut := TargetRun.ofCommands s 0 first
      let r := TargetRun.ofCommands s 0 (first ++ rest)
      cut.target.reader.inPacket = true ∧
        r.target.isQuiet = true ∧ r.reported = 1 ∧ r.target.packetsRefused = 1 ∧
        r.target.subnet.stats.routed = 4 ∧ r.target.subnet.stats.oversized = 0 ∧
        r.target.packetsIn = r.target.subnet.stats.routed + r.target.subnet.stats.unroutable ∧
        r.target.packetsOut =
          (r.target.subnet.nodes.map fun n => n.module.engine.stats.requests).sum + r.reported := by
  have hs : Subnet.withBackends {} {} [.ofRange 0x200 0x300, .ofRange 0x200 0x300] = .ok _ := rfl
  refine ⟨_, hs, ?_⟩
  intro note read first rest cut r
  obtain ⟨⟨-, -, hrefused⟩, hoversized, -, -, hrests⟩ := target_accounts hs 0 (first ++ rest)
  have hcut : cut.target.reader.inPacket = true := by decide +kernel
  have hquiet : r.target.isQuiet = true := by decide +kernel
  obtain ⟨-, hin, hout⟩ := hrests hquiet
  have hreported : r.reported = 1 := by decide +kernel
  have hone : r.target.packetsRefused = 1 := hrefused
  have hrouted : r.target.subnet.stats.routed = 4 := by decide +kernel
  with_reducible exact ⟨hcut, hquiet, hreported, hone, hrouted, hoversized, hin, hout⟩

end ProbeNet
