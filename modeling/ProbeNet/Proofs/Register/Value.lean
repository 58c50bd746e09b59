import Mathlib.Data.List.Induction
import Mathlib.Data.Nat.Digits.Defs
import ProbeNet.Register.Width

/-!
# Values within a width

Words that a width asks for make a value that fits it, and the words of a
value at a width do not see the bits above it.  `getLsbD_ofWords` says where each
bit of a value comes from, and `toNat_ofWords` which number the words make; taking a
value apart and putting it together are then inverse to each other
(`ofWords_toWords`, `toWords_ofWords`).  `value_words_are_digits` is the result.
-/

namespace ProbeNet

namespace Register

theorem Width.words_le (w : Width) : w.words ≤ 8 := by
  cases w <;> decide

theorem Width.toNat_mask (w : Width) : w.mask.toNat = (1 <<< w.bits) - 1 := by
  cases w <;> rfl

theorem Width.toNat_and_mask (w : Width) (v : Value) :
    (v &&& w.mask).toNat = v.toNat % 2 ^ w.bits := by
  rw [BitVec.toNat_and, w.toNat_mask, Nat.one_shiftLeft, Nat.and_two_pow_sub_one_eq_mod]

theorem Width.getLsbD_mask (w : Width) (i : Nat) : w.mask.getLsbD i = decide (i < w.bits) := by
  rw [BitVec.getLsbD, Width.toNat_mask, Nat.one_shiftLeft, Nat.testBit_two_pow_sub_one]

theorem Width.getLsbD_and_mask (w : Width) (v : Value) {k : Nat} (hk : k < w.bits) :
    (v &&& w.mask).getLsbD k = v.getLsbD k := by
  rw [BitVec.getLsbD_and, w.getLsbD_mask, decide_eq_true hk, Bool.and_true]

/-- A value fits a width when masking leaves it as it is. -/
theorem Width.fits_iff (w : Width) (v : Value) : w.fits v = true ↔ v &&& w.mask = v := by
  rw [Width.fits, beq_iff_eq, BitVec.eq_of_getLsbD_eq_iff, BitVec.eq_of_getLsbD_eq_iff]
  refine forall₂_congr fun i hi => ?_
  rw [BitVec.getLsbD_and, BitVec.getLsbD_and, BitVec.getLsbD_not]
  cases v.getLsbD i <;> simp [hi]

theorem Width.fits_iff_lt (w : Width) (v : Value) : w.fits v = true ↔ v.toNat < 2 ^ w.bits := by
  rw [w.fits_iff, ← BitVec.toNat_inj, w.toNat_and_mask]
  exact Nat.mod_eq_iff_lt (Nat.two_pow_pos w.bits).ne'

/-! ## The number that words make -/

theorem ofWords_snoc (ws : List Word) (w : Word) :
    Value.ofWords (ws ++ [w]) = Value.ofWords ws <<< 16 ||| w.setWidth 128 := by
  unfold Value.ofWords
  rw [List.foldl_append]
  rfl

/-- A word comes to stand where the shift has left zeros. -/
theorem shiftLeft_or_word (v : Value) (w : Word) :
    v <<< 16 ||| w.setWidth 128 = v <<< 16 + w.setWidth 128 := by
  refine (BitVec.add_eq_or_of_and_eq_zero _ _ ?_).symm
  apply BitVec.eq_of_getLsbD_eq
  intro i hi
  by_cases hlast : i < 16
  · simp [hlast]
  · simp [BitVec.getLsbD_of_ge w i (by omega)]

/-- Words are the digits of their value to the base 65536, as far as 128 bits hold it. -/
theorem toNat_ofWords (ws : List Word) :
    (Value.ofWords ws).toNat = Nat.ofDigits 65536 (ws.map BitVec.toNat).reverse % 2 ^ 128 := by
  induction ws using List.reverseRecOn with
  | nil => rfl
  | append_singleton ws w ih =>
    have hword : (w.setWidth 128).toNat = w.toNat := by
      rw [BitVec.toNat_setWidth]
      exact Nat.mod_eq_of_lt (by omega)
    rw [ofWords_snoc, shiftLeft_or_word, BitVec.toNat_add, BitVec.toNat_shiftLeft, Nat.shiftLeft_eq,
      hword, ih, List.map_append, List.reverse_append, List.map_singleton, List.reverse_singleton,
      List.singleton_append, Nat.ofDigits_cons]
    omega

theorem toNat_ofWords_lt (ws : List Word) : (Value.ofWords ws).toNat < 65536 ^ ws.length := by
  have hdigits : ∀ d ∈ (ws.map BitVec.toNat).reverse, d < 65536 := by
    intro d hd
    obtain ⟨w, -, rfl⟩ := List.mem_map.mp (List.mem_reverse.mp hd)
    exact w.isLt
  rw [toNat_ofWords]
  calc Nat.ofDigits 65536 (ws.map BitVec.toNat).reverse % 2 ^ 128
      ≤ Nat.ofDigits 65536 (ws.map BitVec.toNat).reverse := Nat.mod_le _ _
    _ < 65536 ^ (ws.map BitVec.toNat).reverse.length :=
        Nat.ofDigits_lt_base_pow_length (by decide) hdigits
    _ = 65536 ^ ws.length := by rw [List.length_reverse, List.length_map]

/-- As many words as a width asks for make a value of that width. -/
theorem ofWords_and_mask {ws : List Word} {w : Width} (h : ws.length = w.words) :
    Value.ofWords ws &&& w.mask = Value.ofWords ws := by
  have hlt := toNat_ofWords_lt ws
  apply BitVec.eq_of_toNat_eq
  rw [Width.toNat_and_mask, Width.bits, ← h, Nat.pow_mul]
  exact Nat.mod_eq_of_lt hlt

/-- The words of a value at a width are those of its bits of that width. -/
theorem toWords_and_mask (v : Value) (w : Width) : (v &&& w.mask).toWords w = v.toWords w := by
  unfold Value.toWords
  refine List.map_congr_left fun i hi => ?_
  have hi : i < w.words := by simpa using hi
  apply BitVec.eq_of_getLsbD_eq
  intro j hj
  have hbit : w.mask.getLsbD (16 * i + j) = true := by
    rw [Width.getLsbD_mask, decide_eq_true_iff, Width.bits]
    omega
  simp [hbit, hj]

/-! ## Taking a value apart and putting it together -/

/-- A bit of a value is a bit of one of its words, counted from the last. -/
theorem getLsbD_ofWords (ws : List Word) {i : Nat} (hi : i < 128) :
    (Value.ofWords ws).getLsbD i = (ws.reverse[i / 16]?.getD 0).getLsbD (i % 16) := by
  induction ws using List.reverseRecOn generalizing i with
  | nil => simp [Value.ofWords]
  | append_singleton ws w ih =>
    rw [ofWords_snoc, BitVec.getLsbD_or, BitVec.getLsbD_shiftLeft, BitVec.getLsbD_setWidth,
      List.reverse_append]
    by_cases hlast : i < 16
    · simp [hlast, hi, Nat.div_eq_of_lt, Nat.mod_eq_of_lt]
    · obtain ⟨j, rfl⟩ := Nat.exists_eq_add_of_le' (Nat.le_of_not_lt hlast)
      simp [hi, ih (show j < 128 by omega)]

theorem reverse_toWords (v : Value) (w : Width) :
    (v.toWords w).reverse = (List.range w.words).map fun i => v.extractLsb' (16 * i) 16 := by
  unfold Value.toWords
  rw [← List.map_reverse, List.reverse_reverse]

/-- The words of a value at a width make its bits of that width. -/
theorem ofWords_toWords (v : Value) (w : Width) : Value.ofWords (v.toWords w) = v &&& w.mask := by
  apply BitVec.eq_of_getLsbD_eq
  intro i hi
  rw [getLsbD_ofWords _ hi, BitVec.getLsbD_and, Width.getLsbD_mask, reverse_toWords,
    List.getElem?_map]
  by_cases hwidth : i < w.bits
  · have hword : i / 16 < w.words := by unfold Width.bits at hwidth; omega
    have hbit : 16 * (i / 16) + i % 16 = i := Nat.div_add_mod i 16
    simp [hwidth, hword, hbit, Nat.mod_lt]
  · have hword : ¬ i / 16 < w.words := by unfold Width.bits at hwidth; omega
    simp [hwidth, hword]

/-- As many words as a width asks for are the words of their value. -/
theorem toWords_ofWords {ws : List Word} {w : Width} (h : ws.length = w.words) :
    (Value.ofWords ws).toWords w = ws := by
  rw [← List.reverse_inj, reverse_toWords]
  refine List.ext_getElem (by simp [h]) fun i hi hlast => ?_
  apply BitVec.eq_of_getLsbD_eq
  intro j hj
  have hwords := w.words_le
  have hi : i < w.words := by simpa using hi
  have hword : (16 * i + j) / 16 = i := by omega
  have hbit : (16 * i + j) % 16 = j := by omega
  rw [List.getElem_map, List.getElem_range, BitVec.getLsbD_extractLsb',
    getLsbD_ofWords ws (by omega), hword, hbit, List.getElem?_eq_getElem hlast]
  simp [hj]

/-- The words in front of the last eight leave at the top. -/
theorem ofWords_drop (ws : List Word) :
    Value.ofWords (ws.drop (ws.length - 8)) = Value.ofWords ws := by
  apply BitVec.eq_of_getLsbD_eq
  intro i hi
  have hword : i / 16 < 8 := by omega
  rw [getLsbD_ofWords _ hi, getLsbD_ofWords _ hi, ← List.take_reverse,
    List.getElem?_take_of_lt hword]

end Register

open Register Register.Value

/-- The words of a value are its digits to the base 65536, the most significant first.  At each
width there are as many as the width asks for, they make the value again, masked to the width, and
every list of that many words consists of the words of the value that it makes.

A list of any length makes the number that has the words as digits, modulo 2 ^ 128, and so only the
last eight words count.  A value fits a width if and only if it is below two to the bits of the
width, and if and only if masking leaves it as it is. -/
theorem value_words_are_digits :
    (∀ (v : Value) (w : Width), (v.toWords w).length = w.words ∧
      ofWords (v.toWords w) = v &&& w.mask ∧ (v &&& w.mask).toNat = v.toNat % 2 ^ w.bits) ∧
    (∀ (ws : List Word) (w : Width), ws.length = w.words → (ofWords ws).toWords w = ws) ∧
    (∀ ws : List Word,
      (ofWords ws).toNat = Nat.ofDigits 65536 (ws.map BitVec.toNat).reverse % 2 ^ 128 ∧
      ofWords (ws.drop (ws.length - 8)) = ofWords ws) ∧
    ∀ (v : Value) (w : Width), (w.fits v = true ↔ v.toNat < 2 ^ w.bits) ∧
      (w.fits v = true ↔ v &&& w.mask = v) :=
  ⟨fun v w => ⟨length_toWords v w, ofWords_toWords v w, w.toNat_and_mask v⟩,
    fun _ _ h => toWords_ofWords h,
    fun ws => ⟨toNat_ofWords ws, ofWords_drop ws⟩,
    fun v w => ⟨w.fits_iff_lt v, w.fits_iff v⟩⟩

/-- The words of 32 bits are two. -/
theorem value_words_are_digits_w32 :
    ([0x1234, 0x5678] : List Word).length = Width.w32.words ∧
      (ofWords [0x1234, 0x5678]).toWords .w32 = [0x1234, 0x5678] :=
  ⟨rfl, value_words_are_digits.2.1 [0x1234, 0x5678] .w32 rfl⟩

end ProbeNet
