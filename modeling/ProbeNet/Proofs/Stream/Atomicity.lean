import ProbeNet.Proofs.Stream.Stores

/-!
# Consumers of a buffer of whole packets

Whoever presents flits to a buffer of whole packets and whoever takes them, in
whatever order, the consumer gets whole packets: when it is shown a flit, the rest
of the packet is there, and when it is shown nothing, it is between two packets.

* A `BufferRun` is a buffer with an account of the flits that it has taken, of
  those that have left it and of those that it has handed back.
* `BufferRun.Keeps` is what each operation keeps; pushing and popping are the only
  two that there are, since a step is one after the other.
* `BufferRun.popped_run` drains a packet, and `wholePacket_shows_whole_packets` puts
  it all together.
-/

namespace ProbeNet

/-! ## Runs -/

/-- What is done with a buffer. -/
inductive BufferAction where
  /-- A producer presents a flit. -/
  | push (f : Flit)
  /-- A consumer takes the flit that is shown. -/
  | pop
  /-- A consumer looks at the flit that is shown. -/
  | peek
  /-- The buffer takes a step between a source that shows `input` and a sink that
  is ready or not. -/
  | tick (input : Option Flit) (ready : Bool)

/-- A buffer and the flits that have gone through the hands of its users. -/
structure BufferRun where
  buffer : Buffer
  /-- The flits that the buffer has taken. -/
  accepted : List Flit := []
  /-- The flits that have left it. -/
  popped : List Flit := []
  /-- The flits that it has left with their producers. -/
  refused : List Flit := []

namespace BufferRun

/-- The run after one more operation. -/
def act (r : BufferRun) : BufferAction → BufferRun
  | .push f =>
    if r.buffer.ready then { r with buffer := r.buffer.push f, accepted := r.accepted ++ [f] }
    else { r with buffer := r.buffer.push f, refused := r.refused ++ [f] }
  | .pop => { r with buffer := r.buffer.pop, popped := r.popped ++ r.buffer.peek.toList }
  | .peek => r
  | .tick input ready =>
    let (buffer, sent, taken) := r.buffer.tick input ready
    { buffer
      accepted := r.accepted ++ if taken then input.toList else []
      popped := r.popped ++ sent.toList
      refused := r.refused ++ if taken then [] else input.toList }

/-- The run of some operations on a buffer. -/
def ofActions (b : Buffer) (actions : List BufferAction) : BufferRun :=
  actions.foldl act { buffer := b }

theorem ofActions_append (b : Buffer) (actions more : List BufferAction) :
    ofActions b (actions ++ more) = more.foldl act (ofActions b actions) :=
  List.foldl_append

/-- A flit that is refused is handed back, and nothing else happens. -/
theorem act_push_of_not_ready {r : BufferRun} (h : r.buffer.ready = false) (f : Flit) :
    r.act (.push f) = { r with refused := r.refused ++ [f] } := by
  simp [act, h, Buffer.push_of_not_ready h]

/-- In a step, the flit that is shown leaves, and then the input comes in. -/
theorem act_tick (r : BufferRun) (input : Option Flit) (ready : Bool) :
    r.act (.tick input ready) =
      (input.toList.map BufferAction.push).foldl act (if ready then r.act .pop else r) := by
  have hpop : (if ready then r.act .pop else r) =
      { r with
        buffer := r.buffer.popIf (if ready then r.buffer.peek else none).isSome
        popped := r.popped ++ (if ready then r.buffer.peek else none).toList } := by
    cases ready with
    | false => simp [Buffer.popIf]
    | true =>
      cases hpeek : r.buffer.peek with
      | none => simp [act, Buffer.popIf, hpeek, Buffer.pop_of_peek_none hpeek]
      | some f => simp [act, Buffer.popIf, hpeek]
  rw [hpop]
  cases input with
  | none => simp [act, Buffer.tick, Buffer.offer]
  | some f =>
    simp only [Option.toList_some, List.map_cons, List.map_nil, List.foldl_cons, List.foldl_nil,
      act, Buffer.tick, Buffer.offer, Option.isSome_some, Bool.true_and]
    generalize (if ready then r.buffer.peek else none) = sent
    cases hfree : (r.buffer.popIf sent.isSome).ready <;> simp

/-! ## What the operations keep -/

/-- The buffer holds what it has taken and not handed on, within its depth, and
does not show the beginning of a packet alone. -/
structure Keeps (r : BufferRun) (depth : Nat) : Prop where
  capacity : r.buffer.depth = depth
  room : r.buffer.size ≤ depth
  flow : r.accepted = r.popped ++ r.buffer.flits
  whole : r.buffer.Whole r.popped

variable {r : BufferRun} {depth : Nat} {f : Flit}

theorem keeps_initial {maxPacketLen : Nat} {b : Buffer}
    (h : Buffer.wholePacket depth maxPacketLen = .ok b) : Keeps { buffer := b } depth := by
  obtain ⟨rfl, -⟩ := Buffer.of_wholePacket h
  exact ⟨rfl, Nat.zero_le _, rfl, Buffer.whole_empty depth⟩

theorem ready_iff (h : r.Keeps depth) : r.buffer.ready = true ↔ r.buffer.size < depth := by
  have hdepth := h.capacity
  simp only [Buffer.ready, Buffer.isFull, hdepth, Bool.not_eq_true', decide_eq_false_iff_not]
  exact Nat.not_le

theorem Keeps.push (h : r.Keeps depth) (f : Flit) : (r.act (.push f)).Keeps depth := by
  cases hready : r.buffer.ready with
  | false =>
    rw [act_push_of_not_ready hready]
    exact { h with }
  | true =>
    have hfree := (ready_iff h).mp hready
    simp only [act, hready, if_true]
    refine ⟨(Buffer.push_depth ..).trans h.capacity, ?_, ?_, h.whole.push f⟩
    · simp only [Buffer.size, Buffer.flits_push, hready, if_true, List.length_append,
        List.length_singleton]
      exact hfree
    · simp [h.flow, hready]

theorem Keeps.pop (h : r.Keeps depth) : (r.act .pop).Keeps depth := by
  cases hpeek : r.buffer.peek with
  | none =>
    have hsame : r.act .pop = r := by simp [act, hpeek, Buffer.pop_of_peek_none hpeek]
    rw [hsame]
    exact h
  | some f =>
    have hflits := Buffer.flits_of_peek hpeek
    have hroom := h.room
    simp only [act, hpeek, Option.toList_some]
    refine ⟨(Buffer.pop_depth _).trans h.capacity, ?_, ?_, h.whole.pop hpeek⟩
    · rw [Buffer.size, hflits, List.length_cons] at hroom
      exact Nat.le_of_succ_le hroom
    · rw [h.flow, hflits]
      simp

/-- Every operation keeps the account. -/
theorem Keeps.act (h : r.Keeps depth) (action : BufferAction) : (r.act action).Keeps depth := by
  cases action with
  | push f => exact h.push f
  | pop => exact h.pop
  | peek => exact h
  | tick input ready =>
    have hpopped : (if ready then r.act .pop else r).Keeps depth := by
      split
      · exact h.pop
      · exact h
    rw [act_tick]
    cases input with
    | none => exact hpopped
    | some f => exact hpopped.push f

theorem keeps_ofActions {maxPacketLen : Nat} {b : Buffer}
    (h : Buffer.wholePacket depth maxPacketLen = .ok b) (actions : List BufferAction) :
    (ofActions b actions).Keeps depth := by
  induction actions using List.reverseRecOn with
  | nil => exact keeps_initial h
  | append_singleton actions action ih =>
    rw [ofActions_append]
    exact ih.act action

/-! ## What a consumer sees -/

/-- A consumer that takes what it is shown gets a packet that is there whole. -/
theorem Keeps.popped_run (h : r.Keeps depth) {run rest : List Flit} (hrun : Flit.IsRun run)
    (hflits : r.buffer.flits = run ++ rest) :
    ((List.replicate run.length BufferAction.pop).foldl BufferRun.act r).popped =
      r.popped ++ run := by
  induction run generalizing r with
  | nil => exact absurd rfl hrun.ne_nil
  | cons f run ih =>
    have hend : ∃ g ∈ r.buffer.flits, g.last = true := by
      obtain ⟨xs, g, heq, hlast, -⟩ := Flit.isRun_iff.mp hrun
      refine ⟨g, ?_, hlast⟩
      rw [hflits, heq]
      simp
    have hpeek : r.buffer.peek = some f := by
      rw [h.whole.peek_eq_head? hend, hflits]
      rfl
    have hleft : (r.act .pop).buffer.flits = run ++ rest := by
      have hcons := Buffer.flits_of_peek hpeek
      rw [hflits] at hcons
      exact (List.cons.inj hcons).2.symm
    have hpopped : (r.act .pop).popped = r.popped ++ [f] := by
      simp [BufferRun.act, hpeek]
    rw [List.length_cons, List.replicate_succ, List.foldl_cons]
    rcases hrun.cons_cases with ⟨-, rfl⟩ | ⟨-, hrun⟩
    · exact hpopped
    · rw [ih h.pop hrun hleft, hpopped, List.append_assoc]
      rfl

/-- A flit that is shown is followed by the rest of its packet, and it is the
rest of a packet that the buffer has taken. -/
theorem Keeps.rest_of_peek (h : r.Keeps depth) (hpeek : r.buffer.peek = some f) :
    ∃ rest, Flit.IsRun (f :: rest) ∧ f :: rest <+: r.buffer.flits ∧
      Flit.openRun r.popped ++ f :: rest ∈ Flit.runs r.accepted := by
  have hflits := Buffer.flits_of_peek hpeek
  have hend : ∃ g ∈ r.buffer.flits, g.last = true := by
    have hpos := h.whole.complete_pos hpeek
    rw [h.whole.complete] at hpos
    exact List.countP_pos_iff.mp hpos
  obtain ⟨run, hrun, hprefix⟩ := Flit.exists_isRun_prefix hend
  obtain ⟨rest, rfl⟩ : ∃ rest, run = f :: rest := by
    obtain ⟨g, rest, rfl⟩ := List.exists_cons_of_ne_nil hrun.ne_nil
    rw [hflits] at hprefix
    exact ⟨rest, by rw [(List.cons_prefix_cons.mp hprefix).1]⟩
  refine ⟨rest, hrun, hprefix, ?_⟩
  have htaken : r.popped ++ f :: rest <+: r.accepted := by
    rw [h.flow]
    exact (List.prefix_append_right_inj _).mpr hprefix
  exact (Flit.runs_prefix htaken).subset (hrun.mem_runs_append r.popped)

end BufferRun

/-- Take any buffer of whole packets that can be built, and any operations on it.
What has left it and what it holds are the flits that it has taken, in order, and
it never holds more than its depth.  A flit that it refuses, which it does only when
it is full, is handed back, and nothing else happens.  Its counter of packets is the
number of flits that it holds and that end a packet, so it is not zero when such a
flit leaves.  When it shows a flit, it holds the rest of that packet, and a consumer
that goes on taking flits gets to the end of it.  When it shows nothing, the last
flit that a consumer has got, if there is any, is the last of its packet. -/
theorem wholePacket_shows_whole_packets {depth maxPacketLen : Nat} {b : Buffer}
    (hb : Buffer.wholePacket depth maxPacketLen = .ok b) (actions : List BufferAction) :
    let r := BufferRun.ofActions b actions
    r.accepted = r.popped ++ r.buffer.flits ∧ r.buffer.size ≤ depth ∧
      (∀ f, (r.act (.push f)).accepted = r.accepted ++ [f] ∨
        r.buffer.size = depth ∧ r.act (.push f) = { r with refused := r.refused ++ [f] }) ∧
      r.buffer.complete = r.buffer.flits.countP Flit.last ∧
      (∀ f, r.buffer.peek = some f → f.last.toNat ≤ r.buffer.complete ∧
        ∃ rest, f :: rest <+: r.buffer.flits ∧
          Flit.openRun r.popped ++ f :: rest ∈ Flit.runs r.accepted ∧
          (BufferRun.ofActions b (actions ++ List.replicate (rest.length + 1) .pop)).popped =
            r.popped ++ f :: rest) ∧
      (r.buffer.peek = none → ∀ f ∈ r.popped.getLast?, f.last = true) := by
  intro r
  have h : r.Keeps depth := BufferRun.keeps_ofActions hb actions
  refine ⟨h.flow, h.room, fun f => ?_, h.whole.complete, fun f hpeek => ⟨?_, ?_⟩, fun hpeek => ?_⟩
  · cases hready : r.buffer.ready with
    | true => exact Or.inl (by simp [BufferRun.act, hready])
    | false =>
      have hfull : ¬ r.buffer.size < depth := by
        rw [← BufferRun.ready_iff h, hready]
        exact Bool.false_ne_true
      exact Or.inr ⟨Nat.le_antisymm h.room (Nat.not_lt.mp hfull),
        BufferRun.act_push_of_not_ready hready f⟩
  · exact Nat.le_trans (Bool.toNat_le _) (h.whole.complete_pos hpeek)
  · obtain ⟨rest, hrun, ⟨others, hothers⟩, hpacket⟩ := h.rest_of_peek hpeek
    refine ⟨rest, ⟨others, hothers⟩, hpacket, ?_⟩
    rw [BufferRun.ofActions_append]
    exact h.popped_run hrun hothers.symm
  · exact (Flit.openRun_eq_nil_iff _).mp (h.whole.unmarked_of_peek_none hpeek).1

/-- A buffer that is filled, drained and filled again: the second flit of a packet is
shown, behind it waits the beginning of another one, and a flit was refused.  A
consumer gets to the end of the packet. -/
theorem wholePacket_shows_whole_packets_refilled :
    let actions : List BufferAction :=
      [.push ⟨1, false⟩, .push ⟨2, false⟩, .pop, .tick (some ⟨3, true⟩) true,
        .tick (some ⟨4, false⟩) true, .peek, .push ⟨5, false⟩]
    ∃ b, Buffer.wholePacket 3 3 = .ok b ∧
      (BufferRun.ofActions b actions).popped = [⟨1, false⟩] ∧
      (BufferRun.ofActions b actions).refused = [⟨5, false⟩] ∧
      (BufferRun.ofActions b actions).buffer.peek = some ⟨2, false⟩ ∧
      ∃ rest, (BufferRun.ofActions b (actions ++ List.replicate (rest.length + 1) .pop)).popped =
        [⟨1, false⟩] ++ ⟨2, false⟩ :: rest := by
  intro actions
  have hb : Buffer.wholePacket 3 3 = .ok (.empty 3 .wholePacket) := rfl
  refine ⟨_, hb, rfl, rfl, rfl, ?_⟩
  obtain ⟨-, rest, -, -, hpopped⟩ :=
    (wholePacket_shows_whole_packets hb actions).2.2.2.2.1 ⟨2, false⟩ rfl
  exact ⟨rest, hpopped⟩

end ProbeNet
