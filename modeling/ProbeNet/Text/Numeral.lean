/-!
# Numerals

How numbers are written and read in the texts of this library.  Writing is
positional, without a sign, padded with zeros to a least number of digits.
Reading accepts what the command line and the settings accept: an optional
plus sign and then digits of the radix, at least one of them, whose value
stays below a bound.

`Numeral.read` reports the first thing that goes wrong from the left.  A
value that leaves the bound is reported at the digit that takes it there, so
a bad character behind that digit is not seen any more.
-/

namespace ProbeNet

namespace Numeral

/-! ## Writing -/

/-- The digits of `n` in the given radix, most significant first, with
zeros in front when there are fewer than `width` of them. -/
def digits (radix width n : Nat) : List Char :=
  let ds := Nat.toDigits radix n
  List.replicate (width - ds.length) '0' ++ ds

/-- `n` in decimal. -/
def decimal (n : Nat) : String := String.ofList (digits 10 1 n)

/-- `n` in lowercase hexadecimal, behind `0x`, with at least `width` digits. -/
def hex (width n : Nat) : String := "0x" ++ String.ofList (digits 16 width n)

/-- `n` in binary, behind `0b`, with at least `width` digits. -/
def binary (width n : Nat) : String := "0b" ++ String.ofList (digits 2 width n)

/-! ## Reading -/

/-- Why a text is not the numeral that was asked for. -/
inductive Error where
  | empty
  /-- A character that is no digit of the radix, or a sign without digits. -/
  | invalidDigit
  | tooLarge
  deriving DecidableEq, Repr

def Error.message : Error → String
  | .empty => "cannot parse integer from empty string"
  | .invalidDigit => "invalid digit found in string"
  | .tooLarge => "number too large to fit in target type"

/-- The value of a digit, letters of either case standing for ten and up;
`none` when it is not below the radix. -/
def digitValue? (radix : Nat) (c : Char) : Option Nat :=
  let v :=
    if c.isDigit then some (c.toNat - '0'.toNat)
    else if 'a' ≤ c ∧ c ≤ 'z' then some (c.toNat - 'a'.toNat + 10)
    else if 'A' ≤ c ∧ c ≤ 'Z' then some (c.toNat - 'A'.toNat + 10)
    else none
  v.filter (· < radix)

/-- Reads digits onto `acc`, refusing to reach `bound`. -/
def readDigits (radix bound : Nat) : Nat → List Char → Except Error Nat
  | acc, [] => .ok acc
  | acc, c :: cs =>
    match digitValue? radix c with
    | none => .error .invalidDigit
    | some d =>
      if acc * radix + d < bound then readDigits radix bound (acc * radix + d) cs
      else .error .tooLarge

/-- Reads a whole text: an optional plus sign, then at least one digit. -/
def readChars (radix bound : Nat) : List Char → Except Error Nat
  | [] => .error .empty
  | ['+'] => .error .invalidDigit
  | '+' :: cs => readDigits radix bound 0 cs
  | cs => readDigits radix bound 0 cs

/-- Reads a numeral of the given radix below `bound`. -/
def read (radix bound : Nat) (text : String) : Except Error Nat :=
  readChars radix bound text.toList

/-- Reads a numeral that is hexadecimal behind `0x` and decimal otherwise. -/
def readPrefixed (bound : Nat) (text : String) : Except Error Nat :=
  match text.toList with
  | '0' :: 'x' :: cs => readChars 16 bound cs
  | cs => readChars 10 bound cs

end Numeral

end ProbeNet
