import Mathlib.Data.List.DropRight
import Mathlib.Data.List.ReduceOption
import ProbeNet.Proofs.Stream.Stores

/-!
# What a reader reports

A reader has two things to keep in mind, the flits of a packet that is not complete and the
empty steps in a row, and they are forgotten at different times.  After any steps both can be
told from what the steps found, without a reader: `PacketReader.ofInputs_eq`.

* `PacketReader.unfinished` are the flits since the last one that ended a packet.  Empty steps do
  not count there.
* `PacketReader.emptySteps` are the steps since the last flit.  The reader keeps their number
  only up to the timeout, with a timeout of zero as with one of one step.

`reader_reports` says from this what the next step comes to.
-/

namespace ProbeNet

theorem Flit.openRun_eq_rtakeWhile (fs : List Flit) :
    openRun fs = fs.rtakeWhile fun f => !f.last := by
  induction fs using List.reverseRecOn with
  | nil => rfl
  | append_singleton fs f ih =>
    rw [openRun_snoc, List.rtakeWhile_concat, ← ih]
    cases f.last <;> rfl

namespace PacketReader

/-- A reader after some steps.  In each of them it has found a flit or nothing. -/
def ofInputs (timeout : Nat) (inputs : List (Option Flit)) : PacketReader :=
  inputs.foldl (fun r input => (r.tick input).1) { timeout }

/-- The flits of a packet that has begun and not ended. -/
def unfinished (inputs : List (Option Flit)) : List Flit :=
  inputs.reduceOption.rtakeWhile fun f => !f.last

/-- How many of the latest steps found nothing, one after the other. -/
def emptySteps (inputs : List (Option Flit)) : Nat := (inputs.rtakeWhile Option.isNone).length

/-! ## One more step -/

variable (inputs : List (Option Flit)) (f : Flit)

theorem ofInputs_snoc (timeout : Nat) (input : Option Flit) :
    ofInputs timeout (inputs ++ [input]) = ((ofInputs timeout inputs).tick input).1 :=
  List.foldl_append

@[simp] theorem unfinished_snoc_none : unfinished (inputs ++ [none]) = unfinished inputs := by
  simp [unfinished, List.reduceOption_append]

@[simp] theorem unfinished_snoc_some :
    unfinished (inputs ++ [some f]) = if f.last then [] else unfinished inputs ++ [f] := by
  rw [unfinished, ← List.concat_eq_append, List.reduceOption_concat_of_some,
    List.concat_eq_append, List.rtakeWhile_concat]
  cases f.last <;> rfl

@[simp] theorem emptySteps_snoc_none : emptySteps (inputs ++ [none]) = emptySteps inputs + 1 := by
  simp [emptySteps]

@[simp] theorem emptySteps_snoc_some : emptySteps (inputs ++ [some f]) = 0 := by
  simp [emptySteps]

/-- A counter that starts again at `m` keeps the remainder. -/
theorem succ_mod_eq_ite {m : Nat} (hm : 0 < m) (n : Nat) :
    (n + 1) % m = if m ≤ n % m + 1 then 0 else n % m + 1 := by
  have hlt : n % m < m := Nat.mod_lt n hm
  rw [← Nat.mod_add_mod]
  split
  · rename_i hfull
    rw [show n % m + 1 = m from Nat.le_antisymm hlt hfull, Nat.mod_self]
  · rename_i hless
    exact Nat.mod_eq_of_lt (Nat.not_le.mp hless)

theorem max_pos (timeout : Nat) : 0 < max timeout 1 :=
  Nat.lt_of_lt_of_le Nat.zero_lt_one (Nat.le_max_right timeout 1)

/-- The reader has counted up to its timeout, or to one if this is zero, when the steps are a
multiple of that. -/
theorem timeout_le_iff (timeout n : Nat) :
    timeout ≤ n % max timeout 1 + 1 ↔ max timeout 1 ∣ n + 1 := by
  rw [Nat.dvd_iff_mod_eq_zero, succ_mod_eq_ite (max_pos timeout)]
  split <;> omega

/-- The reader after any steps, told from what they found. -/
theorem ofInputs_eq (timeout : Nat) :
    ofInputs timeout inputs =
      { flits := unfinished inputs, idleSteps := emptySteps inputs % max timeout 1, timeout } := by
  induction inputs using List.reverseRecOn with
  | nil => simp [ofInputs, unfinished, emptySteps]
  | append_singleton inputs input ih =>
    rw [ofInputs_snoc, ih]
    cases input with
    | none =>
      have hcount := succ_mod_eq_ite (max_pos timeout) (emptySteps inputs)
      have hfull : timeout ≤ emptySteps inputs % max timeout 1 + 1 ↔
          max timeout 1 ≤ emptySteps inputs % max timeout 1 + 1 := by omega
      simp only [tick, hfull, unfinished_snoc_none, emptySteps_snoc_none, hcount]
      split <;> rfl
    | some f => cases hlast : f.last <;> simp [tick, hlast]

end PacketReader

/-- Take a reader with any timeout after any steps, each of which found a flit or nothing.

A step that finds a flit marked last reports the packet, or what is wrong with it, that the words
make up since the last flit that was marked so, and the reader forgets them.  A step that finds any
other flit reports nothing, and the flit is kept.  A step that finds nothing reports a timeout if the
steps in a row that found nothing are now a multiple of the timeout, of one if this is zero, and
otherwise nothing; what has been read of a packet stays as it is.  The reader is in a packet if and
only if the latest flit that it has read, if there is any, was not marked last.  Its count of empty
steps never goes up to the timeout. -/
theorem reader_reports (timeout : Nat) (inputs : List (Option Flit)) :
    let r := PacketReader.ofInputs timeout inputs
    let held := inputs.reduceOption.rtakeWhile fun f => !f.last
    (∀ f, f.last = true →
      (r.tick (some f)).2 =
          (match Packet.decode ((held ++ [f]).map Flit.word) with
          | .ok p => .packet p
          | .error e => .malformed e) ∧
        (r.tick (some f)).1.flits = []) ∧
      (∀ f, f.last = false →
        (r.tick (some f)).2 = .pending ∧ (r.tick (some f)).1.flits = held ++ [f]) ∧
      (r.tick none).2 =
        (if max timeout 1 ∣ ((inputs ++ [none]).rtakeWhile Option.isNone).length then .timedOut
        else .pending) ∧
      (r.tick none).1.flits = held ∧ r.flits = held ∧
      (r.inPacket = true ↔ ∃ f, inputs.reduceOption.getLast? = some f ∧ f.last = false) ∧
      r.idleSteps < max timeout 1 := by
  intro r held
  have hr : r = { flits := held, idleSteps := PacketReader.emptySteps inputs % max timeout 1,
                  timeout } := PacketReader.ofInputs_eq inputs timeout
  refine ⟨fun f hlast => ?_, fun f hlast => ?_, ?_, ?_, ?_, ?_, ?_⟩
  · rw [hr]
    cases hdecode : Packet.decode ((held ++ [f]).map Flit.word) <;>
      simp only [PacketReader.tick, hlast, if_true, Packet.ofFlits, hdecode, and_self]
  · rw [hr]
    simp [PacketReader.tick, hlast]
  · have hcount : ((inputs ++ [none]).rtakeWhile Option.isNone).length =
        PacketReader.emptySteps inputs + 1 := PacketReader.emptySteps_snoc_none inputs
    rw [hr]
    simp only [PacketReader.tick, PacketReader.timeout_le_iff, hcount]
    split <;> rfl
  · rw [hr]
    simp only [PacketReader.tick]
    split <;> rfl
  · rw [hr]
  · have hopen := Flit.openRun_eq_nil_iff inputs.reduceOption
    rw [Flit.openRun_eq_rtakeWhile] at hopen
    rw [hr, PacketReader.inPacket, Bool.not_eq_true', List.isEmpty_eq_false_iff, ne_eq, hopen]
    simp
  · rw [hr]
    exact Nat.mod_lt _ (PacketReader.max_pos timeout)

end ProbeNet
