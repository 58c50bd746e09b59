import ProbeNet.Proofs.Register.Value
import ProbeNet.Proofs.Stream.Interleaving

/-!
# Bits that are set in two accesses

To set a bit of a register, its value is read and, unless the bit is as it should be, written back
with the bit changed.  Between the two accesses others may write the register.

* `BitCall.apply` is what such a call makes of a value.
* `Replay` says from the accesses that were served what the register holds and what each call has
  seen of it.
* `Overlapping` says of two calls that each has read the register before the other one wrote it.
  `kept_iff_not_overlapping` is for which orders of their accesses the bits of both are kept.
-/

namespace ProbeNet

open Register

/-! ## One call -/

/-- A call that sets a bit, or clears it. -/
structure BitCall where
  bit : Nat
  on : Bool
  deriving DecidableEq, Repr

namespace BitCall

variable (c : BitCall)

/-- The value with the bit as requested. -/
def apply (v : Value) : Value :=
  let mask : Value := 1#128 <<< c.bit
  if c.on then v ||| mask else v &&& ~~~mask

theorem getLsbD_apply (v : Value) {k : Nat} (hk : k < 128) :
    (c.apply v).getLsbD k = if k = c.bit then c.on else v.getLsbD k := by
  have hmask : (1#128 <<< c.bit).getLsbD k = decide (k = c.bit) := by
    rw [BitVec.getLsbD_shiftLeft, BitVec.getLsbD_one, decide_eq_true hk, Bool.true_and,
      decide_eq_true (Nat.succ_pos 127), Bool.true_and]
    by_cases h : k < c.bit
    · rw [decide_eq_true h, decide_eq_false (Nat.ne_of_lt h)]
      rfl
    · rw [decide_eq_false h, Bool.not_false, Bool.true_and]
      exact decide_eq_decide.mpr (by omega)
  unfold apply
  cases hon : c.on with
  | false =>
    rw [if_neg Bool.false_ne_true, BitVec.getLsbD_and, BitVec.getLsbD_not, hmask]
    by_cases h : k = c.bit <;> simp [h, hk]
  | true =>
    rw [if_pos rfl, BitVec.getLsbD_or, hmask]
    by_cases h : k = c.bit <;> simp [h]

/-- A value stays as it is if the bit is as requested. -/
theorem apply_eq_self_iff {c : BitCall} (hbit : c.bit < 128) (v : Value) :
    c.apply v = v ↔ v.getLsbD c.bit = c.on := by
  constructor
  · intro h
    rw [← h, c.getLsbD_apply v hbit, if_pos rfl]
  · intro h
    apply BitVec.eq_of_getLsbD_eq
    intro k hk
    rw [c.getLsbD_apply v hk]
    split
    · rename_i heq
      rw [heq, h]
    · rfl

end BitCall

/-! ## Accesses in a row -/

/-- An access that was served, and for which call. -/
inductive ServedAccess where
  | read (call : Nat)
  | write (call : Nat)
  deriving DecidableEq, Repr

def ServedAccess.call : ServedAccess → Nat
  | read call | write call => call

/-- What a 16-bit register holds, and what each call has read. -/
structure Replay where
  word : Value
  seen : Nat → Value

namespace Replay

variable (calls : Nat → BitCall)

/-- A call reads the register, or writes what it makes of the value that it has read. -/
def step (r : Replay) : ServedAccess → Replay
  | .read call =>
    { r with seen := fun i => if i = call then r.word &&& Width.w16.mask else r.seen i }
  | .write call => { r with word := (calls call).apply (r.seen call) &&& Width.w16.mask }

/-- The register holds `v` before the first access. -/
def ofServed (v : Value) (served : List ServedAccess) : Replay :=
  served.foldl (step calls) { word := v, seen := fun _ => 0 }

theorem ofServed_snoc (v : Value) (served : List ServedAccess) (access : ServedAccess) :
    ofServed calls v (served ++ [access]) = (ofServed calls v served).step calls access := by
  rw [ofServed, List.foldl_append]
  rfl

/-- What a call has read does not change with the accesses of others. -/
theorem seen_step_of_ne (r : Replay) {access : ServedAccess} {call : Nat}
    (h : access.call ≠ call) : (r.step calls access).seen call = r.seen call := by
  cases access with
  | read i => exact if_neg (Ne.symm h)
  | write i => rfl

end Replay

/-! ## Two calls -/

open ServedAccess

/-- Each of the two calls has read the register before the other one wrote it. -/
def Overlapping (served : List ServedAccess) : Prop :=
  [read 0, write 1].Sublist served ∧ [read 1, write 0].Sublist served

instance (served : List ServedAccess) : Decidable (Overlapping served) :=
  inferInstanceAs (Decidable (_ ∧ _))

/-- The accesses of a call are served: it reads, and writes unless the bit was as requested. -/
def Replay.Completes (calls : Nat → BitCall) (v : Value) (served : List ServedAccess)
    (call : Nat) : Prop :=
  served.filter (·.call = call) =
    if ((ofServed calls v served).seen call).getLsbD (calls call).bit = (calls call).on then
      [read call]
    else [read call, write call]

namespace Replay

variable {calls : Nat → BitCall} {v : Value} {served : List ServedAccess}

/-- A call writes if the bit was not as requested. -/
theorem Completes.write_mem_iff {call : Nat} (h : Completes calls v served call) :
    write call ∈ served ↔
      ((ofServed calls v served).seen call).getLsbD (calls call).bit ≠ (calls call).on := by
  have hmem : write call ∈ served ↔ write call ∈ served.filter (·.call = call) := by
    rw [List.mem_filter, ServedAccess.call, decide_eq_true rfl, and_iff_left rfl]
  rw [hmem, h]
  split <;> simp_all

/-- When each access is of one of two calls, the accesses are those of the two interleaved. -/
theorem interleaves_of_calls (hcalls : ∀ access ∈ served, access.call < 2) :
    Interleaves (served.filter (·.call = 0)) (served.filter (·.call = 1)) served := by
  have hrest : (served.filter fun access => !decide (access.call = 0)) =
      served.filter (·.call = 1) := by
    refine List.filter_congr fun access hmem => ?_
    have hlt := hcalls access hmem
    rw [← decide_not]
    exact decide_eq_decide.mpr (by omega)
  rw [← hrest]
  exact Interleaves.of_filter (fun access => decide (access.call = 0)) served

/-- Whatever two calls do in whatever order, each finds its own bit as it was at the start, no other
bit changes, and at least one of the two is as requested.  Both are unless each call has read the
register before the other one wrote it. -/
theorem kept_iff_not_overlapping (hcalls : ∀ access ∈ served, access.call < 2)
    (hbit : ∀ call, call < 2 → (calls call).bit < 16) (hne : (calls 0).bit ≠ (calls 1).bit)
    (hcompletes : ∀ call, call < 2 → Completes calls v served call) :
    ((ofServed calls v served).seen 0).getLsbD (calls 0).bit = v.getLsbD (calls 0).bit ∧
      ((ofServed calls v served).seen 1).getLsbD (calls 1).bit = v.getLsbD (calls 1).bit ∧
      (∀ k < 16, k ≠ (calls 0).bit → k ≠ (calls 1).bit →
        (ofServed calls v served).word.getLsbD k = v.getLsbD k) ∧
      ((ofServed calls v served).word.getLsbD (calls 0).bit = (calls 0).on ∨
        (ofServed calls v served).word.getLsbD (calls 1).bit = (calls 1).on) ∧
      ((ofServed calls v served).word.getLsbD (calls 0).bit = (calls 0).on ∧
        (ofServed calls v served).word.getLsbD (calls 1).bit = (calls 1).on ↔
          ¬ Overlapping served) := by
  have hshown : ∀ (u : Value) (k : Nat), k < 16 →
      (u &&& Width.w16.mask).getLsbD k = u.getLsbD k :=
    fun u k hk => Width.w16.getLsbD_and_mask u hk
  have happly : ∀ (c : BitCall) (u : Value) (k : Nat), k < 16 →
      (c.apply u).getLsbD k = if k = c.bit then c.on else u.getLsbD k :=
    fun c u k hk => c.getLsbD_apply u (by omega)
  have hbit0 := hbit 0 (by omega)
  have hbit1 := hbit 1 (by omega)
  have h0 := hcompletes 0 (by omega)
  have h1 := hcompletes 1 (by omega)
  have hwrites : Overlapping served → write 0 ∈ served ∧ write 1 ∈ served := fun h =>
    ⟨h.2.subset (by simp), h.1.subset (by simp)⟩
  rw [h0.write_mem_iff, h1.write_mem_iff] at hwrites
  have hinter := interleaves_of_calls hcalls
  rw [h0, h1] at hinter
  -- There are at most six orders of the accesses; in each of them the replay can be computed.
  split at hinter <;> split at hinter <;> rename_i hfirst hsecond <;>
    simp only [Interleaves.cons_cons_iff, Interleaves.nil_left_iff, Interleaves.nil_right_iff,
      exists_eq_left, or_and_right, exists_or] at hinter
  · have hserial : ¬ Overlapping served := fun h => (hwrites h).1 hfirst
    rcases hinter with rfl | rfl
    all_goals
      simp only [ofServed, step, List.foldl] at hfirst hsecond ⊢
      grind
  · have hserial : ¬ Overlapping served := fun h => (hwrites h).1 hfirst
    rcases hinter with rfl | rfl | rfl
    all_goals
      simp only [ofServed, step, List.foldl] at hfirst hsecond ⊢
      grind
  · have hserial : ¬ Overlapping served := fun h => (hwrites h).2 hsecond
    rcases hinter with (rfl | rfl) | rfl
    all_goals
      simp only [ofServed, step, List.foldl] at hfirst hsecond ⊢
      grind
  · have hserial : ¬ Overlapping [read 0, write 0, read 1, write 1] ∧
        ¬ Overlapping [read 1, write 1, read 0, write 0] := by decide
    have hboth : Overlapping [read 0, read 1, write 0, write 1] ∧
        Overlapping [read 0, read 1, write 1, write 0] ∧
        Overlapping [read 1, read 0, write 0, write 1] ∧
        Overlapping [read 1, read 0, write 1, write 0] := by decide
    rcases hinter with (rfl | rfl | rfl) | (rfl | rfl) | rfl
    all_goals
      simp only [ofServed, step, List.foldl] at hfirst hsecond ⊢
      grind

end Replay

end ProbeNet
