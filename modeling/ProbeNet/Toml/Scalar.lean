import ProbeNet.Toml.Lexeme
import ProbeNet.Toml.Value

/-!
# Numbers and dates in TOML

An integer has a sign and decimal digits, or a radix and digits of that
radix, and lies within 64 bits with sign.  Underscores may stand between two
digits.  A number with a fraction or an exponent must not round to infinity.
A date names a day that its month has.
-/

namespace ProbeNet

namespace Toml

/-! ## Digits -/

/-- Reads digits with single underscores between them; the underscores are
left out.  The first character must be a digit. -/
def digitsTail (isDigit : Char → Bool) : Input → Option (List Char × Input)
  | '_' :: c :: cs =>
    if isDigit c then (digitsTail isDigit cs).map fun (ds, rest) => (c :: ds, rest) else none
  | ['_'] => none
  | c :: cs =>
    if isDigit c then (digitsTail isDigit cs).map fun (ds, rest) => (c :: ds, rest)
    else some ([], c :: cs)
  | [] => some ([], [])

/-- Reads at least one digit, with single underscores between digits. -/
def digits1 (isDigit : Char → Bool) : Input → Option (List Char × Input)
  | c :: cs =>
    if isDigit c then (digitsTail isDigit cs).map fun (ds, rest) => (c :: ds, rest) else none
  | [] => none

/-- The digits of a decimal integer.  A leading zero stands alone. -/
def decimalDigits : Input → Option (List Char × Input)
  | '0' :: cs => some (['0'], cs)
  | cs => digits1 Char.isDigit cs

def decimalValue (ds : List Char) : Nat := ds.foldl (fun n c => n * 10 + (c.toNat - '0'.toNat)) 0

/-- The value of digits up to fifteen. -/
def radixValue (radix : Nat) (ds : List Char) : Nat :=
  ds.foldl (fun n c => n * radix + (hexValue? [c]).getD 0) 0

/-- Reads a sign, if there is one. -/
def sign : Input → Bool × Input
  | '+' :: cs => (false, cs)
  | '-' :: cs => (true, cs)
  | cs => (false, cs)

/-! ## Integers -/

/-- The integer, if it lies within 64 bits with sign. -/
def within64? (i : Int) : Option Int := if -0x8000000000000000 ≤ i ∧ i < 0x8000000000000000 then some i else none

def isHexDigit (c : Char) : Bool := (hexValue? [c]).isSome

/-- Reads an integer of a radix behind its mark. -/
def radixInteger? (radix : Nat) (isDigit : Char → Bool) (cs : Input) : Option (Int × Input) := do
  let (ds, rest) ← digits1 isDigit cs
  let i ← within64? (radixValue radix ds)
  some (i, rest)

def integer? : Reader Int
  | '0' :: 'x' :: cs => radixInteger? 16 isHexDigit cs
  | '0' :: 'o' :: cs => radixInteger? 8 (fun c => '0' ≤ c && c ≤ '7') cs
  | '0' :: 'b' :: cs => radixInteger? 2 (fun c => c = '0' || c = '1') cs
  | cs => do
    let (negative, cs) := sign cs
    let (ds, rest) ← decimalDigits cs
    let n : Int := decimalValue ds
    let i ← within64? (if negative then -n else n)
    some (i, rest)

/-! ## Fractions and exponents -/

/-- The least number that rounds to infinity in double precision. -/
def overflowLimit : Nat := (1 <<< 1024) - (1 <<< 970)

/-- Whether `mantissa` times ten to the power of `exponent` rounds to infinity. -/
def overflows (mantissa : Nat) (exponent : Int) : Bool :=
  let magnitude : Int := (Nat.toDigits 10 mantissa).length + exponent
  if mantissa = 0 || magnitude < 300 then false
  else if 400 < magnitude then true
  else
    match exponent with
    | .ofNat e => overflowLimit ≤ mantissa * Nat.pow 10 e
    | .negSucc e => overflowLimit * Nat.pow 10 (e + 1) ≤ mantissa

def exponent? : Input → Option (Int × Input)
  | c :: cs =>
    if c = 'e' || c = 'E' then do
      let (negative, cs) := sign cs
      let (ds, rest) ← digits1 Char.isDigit cs
      let n : Int := decimalValue ds
      some (if negative then -n else n, rest)
    else none
  | [] => none

/-- Reads a number with a fraction or an exponent, or one that is infinite or
undefined.  Only a positive number can be refused for its size. -/
def float? (cs : Input) : Option Input := do
  let (negative, cs) := sign cs
  match cs with
  | 'i' :: 'n' :: 'f' :: rest => some rest
  | 'n' :: 'a' :: 'n' :: rest => some rest
  | _ =>
    let (whole, cs) ← decimalDigits cs
    let (fraction, exponent, rest) ←
      match cs with
      | '.' :: cs => do
        let (fraction, cs) ← digits1 Char.isDigit cs
        match cs with
        | c :: _ =>
          if c = 'e' || c = 'E' then do
            let (e, rest) ← exponent? cs
            some (fraction, e, rest)
          else some (fraction, 0, cs)
        | [] => some (fraction, 0, cs)
      | cs => do
        let (e, rest) ← exponent? cs
        some ([], e, rest)
    if !negative && overflows (decimalValue (whole ++ fraction)) (exponent - fraction.length) then
      none
    else some rest

/-! ## Dates and times -/

/-- Reads exactly `n` decimal digits as a number from `low` to `high`. -/
def fixed? (n low high : Nat) (cs : Input) : Option (Nat × Input) :=
  let ds := cs.take n
  if ds.length = n && ds.all Char.isDigit then
    let v := decimalValue ds
    if low ≤ v && v ≤ high then some (v, cs.drop n) else none
  else none

def char? (c : Char) : Input → Option Input
  | c' :: cs => if c' = c then some cs else none
  | [] => none

def daysOfMonth (year month : Nat) : Nat :=
  if month = 2 then
    if year % 4 = 0 && (year % 100 ≠ 0 || year % 400 = 0) then 29 else 28
  else if month = 4 || month = 6 || month = 9 || month = 11 then 30
  else 31

def date? (cs : Input) : Option Input := do
  let (year, cs) ← fixed? 4 0 9999 cs
  let cs ← char? '-' cs
  let (month, cs) ← fixed? 2 1 12 cs
  let cs ← char? '-' cs
  let (_, cs) ← fixed? 2 1 (daysOfMonth year month) cs
  some cs

def time? (cs : Input) : Option Input := do
  let (_, cs) ← fixed? 2 0 23 cs
  let cs ← char? ':' cs
  let (_, cs) ← fixed? 2 0 59 cs
  let cs ← char? ':' cs
  let (_, cs) ← fixed? 2 0 60 cs
  match cs with
  | '.' :: rest =>
    match rest.takeWhile Char.isDigit with
    | [] => some cs
    | _ => some (rest.dropWhile Char.isDigit)
  | _ => some cs

/-- Reads the distance from universal time, if there is one. -/
def offset? : Input → Option Input
  | 'Z' :: cs => some cs
  | 'z' :: cs => some cs
  | '+' :: cs => hoursMinutes cs
  | '-' :: cs => hoursMinutes cs
  | cs => some cs
where
  hoursMinutes (cs : Input) : Option Input := do
    let (_, cs) ← fixed? 2 0 23 cs
    let cs ← char? ':' cs
    let (_, cs) ← fixed? 2 0 59 cs
    some cs

/-- Whether the text goes on with a mark between a day and a time. -/
def timeMark? : Input → Option Input
  | 'T' :: cs => some cs
  | 't' :: cs => some cs
  | ' ' :: cs => some cs
  | _ => none

/-- Reads a day, a time of day, or a day with a time. -/
def datetime? (cs : Input) : Option Input :=
  match date? cs with
  | some rest =>
    match (timeMark? rest).bind time? with
    | some rest' => offset? rest'
    | none => some rest
  | none => time? cs

/-! ## Any of them -/

def number? (cs : Input) : Option (Value × Input) :=
  match datetime? cs with
  | some rest => some (.datetime, rest)
  | none =>
    match float? cs with
    | some rest => some (.float, rest)
    | none => (integer? cs).map fun (i, rest) => (.integer i, rest)

end Toml

end ProbeNet
