import Mathlib.Data.List.Forall2
import Mathlib.Data.List.TakeWhile
import Mathlib.Data.Nat.Digits.Defs
import Mathlib.Tactic.IntervalCases
import ProbeNet.Text.Blank
import ProbeNet.Text.Numeral

/-!
# The texts of a number

Which texts the readers of numerals take, said without the readers.  `Numeral.Spells` is a
numeral of one radix, `Numeral.Writes` one that is decimal or stands behind `0x`, and
`Text.Gives` one that may have blanks around it.

* `readDigits_eq_ok_iff` carries the number that was read so far as one leading digit.
* `readChars_eq_ok_iff` and `readPrefixed_eq_ok_iff` say that exactly the numerals below the
  bound are read, each as the number that it spells.
* `trimChars_append` and `exists_trimChars` say what trimming takes away, and with them
  `readPrefixed_trim_eq_ok_iff` says which texts are read with blanks around them.
-/

namespace ProbeNet

namespace Numeral

/-- The character is the digit for `d` in the radix.  A letter may stand in either case. -/
def IsDigit (radix : Nat) (c : Char) (d : Nat) : Prop :=
  d < radix ∧ (c = d.digitChar ∨ c = d.digitChar.toUpper)

/-- The characters are digits, at least one of them, and `n` is the number that they make. -/
def AreDigits (radix : Nat) (cs : List Char) (n : Nat) : Prop :=
  cs ≠ [] ∧ ∃ ds, List.Forall₂ (IsDigit radix) cs ds ∧ n = Nat.ofDigits radix ds.reverse

/-- The characters are a numeral of the radix: digits, perhaps behind a plus sign. -/
inductive Spells (radix : Nat) : List Char → Nat → Prop
  | unsigned {cs : List Char} {n : Nat} (h : AreDigits radix cs n) : Spells radix cs n
  | signed {cs : List Char} {n : Nat} (h : AreDigits radix cs n) : Spells radix ('+' :: cs) n

/-- The characters are a decimal numeral, or a hexadecimal one behind `0x`. -/
inductive Writes : List Char → Nat → Prop
  | decimal {cs : List Char} {n : Nat} (h : Spells 10 cs n) : Writes cs n
  | hexadecimal {cs : List Char} {n : Nat} (h : Spells 16 cs n) : Writes ('0' :: 'x' :: cs) n

variable {radix bound n : Nat} {c : Char} {cs : List Char}

/-! ## Digits -/

theorem toNat_digitChar_of_letter {d : Nat} (hd : 10 ≤ d) (hd' : d < 16) :
    d.digitChar.toNat = 87 + d ∧ d.digitChar.toUpper.toNat = 55 + d := by
  interval_cases d <;> decide

theorem digitValue?_of_isDigit {d : Nat} (hradix : radix ≤ 16) (h : IsDigit radix c d) :
    digitValue? radix c = some d := by
  obtain ⟨hd, hc⟩ := h
  have hd16 : d < 16 := by omega
  unfold digitValue?
  refine Option.filter_eq_some_iff.mpr ⟨?_, decide_eq_true hd⟩
  interval_cases d <;> rcases hc with rfl | rfl <;> decide

theorem isDigit_of_digitValue? {d : Nat} (hradix : radix ≤ 16) (h : digitValue? radix c = some d) :
    IsDigit radix c d := by
  unfold digitValue? at h
  obtain ⟨hvalue, hd⟩ := Option.filter_eq_some_iff.mp h
  have hd : d < radix := of_decide_eq_true hd
  refine ⟨hd, ?_⟩
  rw [← Char.toNat_inj, ← Char.toNat_inj]
  split_ifs at hvalue with hdigit hlower hupper
  · -- a decimal digit
    have hsum := Option.some.inj hvalue
    have hc : 48 ≤ c.toNat ∧ c.toNat ≤ 57 := Char.isDigit_iff_toNat.mp hdigit
    have hzero : '0'.toNat = 48 := rfl
    left
    rw [Nat.toNat_digitChar_of_lt_ten (by omega)]
    omega
  · -- a small letter
    have hc : 97 ≤ c.toNat := hlower.1
    have hsum := Option.some.inj hvalue
    have ha : 'a'.toNat = 97 := rfl
    left
    rw [(toNat_digitChar_of_letter (by omega) (by omega)).1]
    omega
  · -- a capital letter
    have hc : 65 ≤ c.toNat := hupper.1
    have hsum := Option.some.inj hvalue
    have ha : 'A'.toNat = 65 := rfl
    right
    rw [(toNat_digitChar_of_letter (by omega) (by omega)).2]
    omega

theorem digitValue?_eq_some_iff {d : Nat} (hradix : radix ≤ 16) :
    digitValue? radix c = some d ↔ IsDigit radix c d :=
  ⟨isDigit_of_digitValue? hradix, digitValue?_of_isDigit hradix⟩

/-- A digit is no blank. -/
theorem IsDigit.not_blank {d : Nat} (hradix : radix ≤ 16) (h : IsDigit radix c d) :
    Text.isBlank c = false := by
  obtain ⟨hd, hc⟩ := h
  have hd16 : d < 16 := by omega
  interval_cases d <;> rcases hc with rfl | rfl <;> decide

/-! ## Runs of digits -/

/-- What was read so far is the digit in front of the others. -/
theorem ofDigits_reverse_cons_cons (acc d : Nat) (ds : List Nat) :
    Nat.ofDigits radix (acc :: d :: ds).reverse =
      Nat.ofDigits radix ((acc * radix + d) :: ds).reverse := by
  simp only [List.reverse_cons, Nat.ofDigits_append, Nat.ofDigits_singleton, List.length_append,
    List.length_reverse, List.length_singleton, Nat.pow_succ]
  ring

theorem le_ofDigits_reverse_cons (hradix : 0 < radix) (acc : Nat) (ds : List Nat) :
    acc ≤ Nat.ofDigits radix (acc :: ds).reverse := by
  rw [List.reverse_cons, Nat.ofDigits_append, Nat.ofDigits_singleton]
  calc acc = 1 * acc := (Nat.one_mul acc).symm
    _ ≤ radix ^ ds.reverse.length * acc := Nat.mul_le_mul_right acc (Nat.pow_pos hradix)
    _ ≤ _ := Nat.le_add_left _ _

/-- The reader stops at the first digit that takes the number out of the bound.  No digit behind
it would bring the number back, and so the number as a whole decides. -/
theorem readDigits_eq_ok_iff (hpos : 0 < radix) (hradix : radix ≤ 16) {acc : Nat}
    (hacc : acc < bound) :
    readDigits radix bound acc cs = .ok n ↔
      (∃ ds, List.Forall₂ (IsDigit radix) cs ds ∧ n = Nat.ofDigits radix (acc :: ds).reverse) ∧
        n < bound := by
  induction cs generalizing acc with
  | nil =>
    simp only [readDigits, Except.ok.injEq, List.forall₂_nil_left_iff, exists_eq_left,
      List.reverse_singleton, Nat.ofDigits_singleton]
    constructor
    · rintro rfl
      exact ⟨rfl, hacc⟩
    · exact fun h => h.1.symm
  | cons c cs ih =>
    have hcons : (∃ ds, List.Forall₂ (IsDigit radix) (c :: cs) ds ∧
        n = Nat.ofDigits radix (acc :: ds).reverse) ↔
        ∃ d, digitValue? radix c = some d ∧ ∃ ds, List.Forall₂ (IsDigit radix) cs ds ∧
          n = Nat.ofDigits radix ((acc * radix + d) :: ds).reverse := by
      simp only [List.forall₂_cons_left_iff, digitValue?_eq_some_iff hradix]
      constructor
      · rintro ⟨_, ⟨d, ds, hd, hds, rfl⟩, hn⟩
        exact ⟨d, hd, ds, hds, hn.trans (ofDigits_reverse_cons_cons acc d ds)⟩
      · rintro ⟨d, hd, ds, hds, hn⟩
        exact ⟨_, ⟨d, ds, hd, hds, rfl⟩, hn.trans (ofDigits_reverse_cons_cons acc d ds).symm⟩
    rw [hcons, readDigits]
    cases hvalue : digitValue? radix c with
    | none => simp
    | some d =>
      simp only [Option.some.injEq, exists_eq_left']
      split_ifs with hbound
      · exact ih hbound
      · refine iff_of_false (by simp) ?_
        rintro ⟨⟨ds, -, rfl⟩, hn⟩
        exact hbound ((le_ofDigits_reverse_cons hpos _ ds).trans_lt hn)

theorem readDigits_zero_eq_ok_iff (hpos : 0 < radix) (hradix : radix ≤ 16) (hbound : 0 < bound)
    (hne : cs ≠ []) : readDigits radix bound 0 cs = .ok n ↔ AreDigits radix cs n ∧ n < bound := by
  rw [readDigits_eq_ok_iff hpos hradix hbound]
  simp [AreDigits, hne, Nat.ofDigits_append]

/-! ## Numerals -/

theorem not_areDigits_cons (hradix : radix ≤ 16) (hc : digitValue? radix c = none) :
    ¬ AreDigits radix (c :: cs) n := by
  rintro ⟨-, _, hds, -⟩
  cases hds with
  | cons hd _ => cases hc.symm.trans (digitValue?_of_isDigit hradix hd)

/-- No digit is a plus sign, so that a text is a numeral in one way only. -/
theorem spells_plus_iff (hradix : radix ≤ 16) :
    Spells radix ('+' :: cs) n ↔ AreDigits radix cs n := by
  constructor
  · intro h
    cases h with
    | unsigned h => exact absurd h (not_areDigits_cons hradix rfl)
    | signed h => exact h
  · exact .signed

theorem spells_iff_of_ne_plus (hc : c ≠ '+') :
    Spells radix (c :: cs) n ↔ AreDigits radix (c :: cs) n := by
  constructor
  · intro h
    cases h with
    | unsigned h => exact h
    | signed _ => exact absurd rfl hc
  · exact .unsigned

theorem readChars_eq_ok_iff (hpos : 0 < radix) (hradix : radix ≤ 16) (hbound : 0 < bound) :
    readChars radix bound cs = .ok n ↔ Spells radix cs n ∧ n < bound := by
  unfold readChars
  split
  · refine iff_of_false (by simp) ?_
    rintro ⟨h, -⟩
    cases h with
    | unsigned h => exact h.1 rfl
  · rw [spells_plus_iff hradix]
    exact iff_of_false (by simp) fun h => h.1.1 rfl
  · next cs hne =>
    rw [spells_plus_iff hradix]
    exact readDigits_zero_eq_ok_iff hpos hradix hbound hne
  · next hnil _ hplus =>
    cases cs with
    | nil => exact absurd rfl hnil
    | cons c cs =>
      have hc : c ≠ '+' := fun h => hplus cs (congrArg (· :: cs) h)
      rw [spells_iff_of_ne_plus hc]
      exact readDigits_zero_eq_ok_iff hpos hradix hbound (List.cons_ne_nil c cs)

/-- A text that begins with `0x` is no decimal numeral. -/
theorem not_spells_decimal_prefixed : ¬ Spells 10 ('0' :: 'x' :: cs) n := by
  rw [spells_iff_of_ne_plus (by decide)]
  rintro ⟨-, _, hds, -⟩
  cases hds with
  | cons _ hds =>
    cases hds with
    | cons hx _ => cases digitValue?_of_isDigit (by decide) hx

theorem readPrefixed_eq_ok_iff {text : String} (hbound : 0 < bound) :
    readPrefixed bound text = .ok n ↔ Writes text.toList n ∧ n < bound := by
  unfold readPrefixed
  split
  · next cs htext =>
    rw [readChars_eq_ok_iff (by decide) (by decide) hbound, htext]
    refine and_congr_left fun _ => ⟨.hexadecimal, fun h => ?_⟩
    cases h with
    | decimal h => exact absurd h not_spells_decimal_prefixed
    | hexadecimal h => exact h
  · next hother =>
    rw [readChars_eq_ok_iff (by decide) (by decide) hbound]
    refine and_congr_left fun _ => ⟨.decimal, fun h => ?_⟩
    generalize text.toList = cs at h hother
    cases h with
    | decimal h => exact h
    | @hexadecimal cs _ _ => exact absurd rfl (hother cs)

/-! ## Blanks around a numeral -/

theorem AreDigits.not_blank (hradix : radix ≤ 16) (h : AreDigits radix cs n) :
    ∀ c ∈ cs, Text.isBlank c = false := by
  obtain ⟨-, ds, hds, -⟩ := h
  induction hds with
  | nil => simp
  | cons hd _ ih => exact List.forall_mem_cons.mpr ⟨hd.not_blank hradix, ih⟩

theorem Spells.not_blank (hradix : radix ≤ 16) (h : Spells radix cs n) :
    cs ≠ [] ∧ ∀ c ∈ cs, Text.isBlank c = false := by
  cases h with
  | unsigned h => exact ⟨h.1, h.not_blank hradix⟩
  | signed h => exact ⟨by simp, List.forall_mem_cons.mpr ⟨by decide, h.not_blank hradix⟩⟩

theorem Writes.not_blank (h : Writes cs n) : cs ≠ [] ∧ ∀ c ∈ cs, Text.isBlank c = false := by
  cases h with
  | decimal h => exact h.not_blank (by decide)
  | hexadecimal h =>
    refine ⟨by simp, List.forall_mem_cons.mpr ⟨by decide, List.forall_mem_cons.mpr ⟨by decide, ?_⟩⟩⟩
    exact (h.not_blank (by decide)).2

end Numeral

namespace Text

theorem dropWhile_isBlank_append {front core : List Char} (hfront : ∀ c ∈ front, isBlank c = true)
    (hne : core ≠ []) (hcore : ∀ c ∈ core, isBlank c = false) (back : List Char) :
    (front ++ core ++ back).dropWhile isBlank = core ++ back := by
  obtain ⟨c, core, rfl⟩ := List.exists_cons_of_ne_nil hne
  have hc : isBlank c = false := hcore c List.mem_cons_self
  rw [List.append_assoc, List.dropWhile_append_of_pos hfront, List.cons_append,
    List.dropWhile_cons_of_neg (by simp [hc])]

/-- Trimming takes the blanks from both ends of a text without blanks. -/
theorem trimChars_append {front core back : List Char} (hfront : ∀ c ∈ front, isBlank c = true)
    (hback : ∀ c ∈ back, isBlank c = true) (hne : core ≠ [])
    (hcore : ∀ c ∈ core, isBlank c = false) : trimChars (front ++ core ++ back) = core := by
  have hlast : (back.reverse ++ core.reverse ++ []).dropWhile isBlank = core.reverse ++ [] :=
    dropWhile_isBlank_append (by simpa using hback) (by simpa using hne) (by simpa using hcore) []
  simp only [List.append_nil] at hlast
  unfold trimChars
  rw [dropWhile_isBlank_append hfront hne hcore, List.reverse_append, hlast, List.reverse_reverse]

/-- Trimming takes nothing but blanks. -/
theorem exists_trimChars (cs : List Char) : ∃ front back, cs = front ++ trimChars cs ++ back ∧
    (∀ c ∈ front, isBlank c = true) ∧ ∀ c ∈ back, isBlank c = true := by
  refine ⟨cs.takeWhile isBlank, ((cs.dropWhile isBlank).reverse.takeWhile isBlank).reverse, ?_,
    fun c hc => List.mem_takeWhile_imp hc,
    fun c hc => List.mem_takeWhile_imp (List.mem_reverse.mp hc)⟩
  have hrest : trimChars cs ++ ((cs.dropWhile isBlank).reverse.takeWhile isBlank).reverse =
      cs.dropWhile isBlank := by
    unfold trimChars
    rw [← List.reverse_append, List.takeWhile_append_dropWhile, List.reverse_reverse]
  rw [List.append_assoc, hrest, List.takeWhile_append_dropWhile]

/-- The text gives the number: a numeral, decimal or hexadecimal behind `0x`, that may have blanks
on both sides. -/
def Gives (text : String) (n : Nat) : Prop :=
  ∃ front numeral back, text.toList = front ++ numeral ++ back ∧
    (∀ c ∈ front, isBlank c = true) ∧ (∀ c ∈ back, isBlank c = true) ∧ Numeral.Writes numeral n

theorem gives_iff_writes_trim {text : String} {n : Nat} :
    Gives text n ↔ Numeral.Writes (trim text).toList n := by
  rw [trim, String.toList_ofList]
  constructor
  · rintro ⟨front, numeral, back, htext, hfront, hback, h⟩
    rwa [htext, trimChars_append hfront hback h.not_blank.1 h.not_blank.2]
  · intro h
    obtain ⟨front, back, htext, hfront, hback⟩ := exists_trimChars text.toList
    exact ⟨front, _, back, htext, hfront, hback, h⟩

theorem readPrefixed_trim_eq_ok_iff {bound n : Nat} {text : String} (hbound : 0 < bound) :
    Numeral.readPrefixed bound (trim text) = .ok n ↔ Gives text n ∧ n < bound := by
  rw [Numeral.readPrefixed_eq_ok_iff hbound, gives_iff_writes_trim]

/-- A text gives one number only. -/
theorem Gives.unique {text : String} {m n : Nat} (hm : Gives text m) (hn : Gives text n) :
    m = n := by
  have hread (k : Nat) := @readPrefixed_trim_eq_ok_iff (m + n + 1) k text (Nat.succ_pos _)
  have hm := (hread m).mpr ⟨hm, by omega⟩
  have hn := (hread n).mpr ⟨hn, by omega⟩
  exact Except.ok.inj (hm.symm.trans hn)

end Text

end ProbeNet
