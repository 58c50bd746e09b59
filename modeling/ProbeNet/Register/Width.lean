import ProbeNet.Word

/-!
# Register values and their widths

A register access is 16, 32, 64 or 128 bits wide.  A value travels as the
words of its width, most significant first.  Values are held in 128 bits
whatever the width of the access; `Width.mask` and `Width.fits` say which of
them belong to a narrower one.
-/

namespace ProbeNet

namespace Register

/-- The value of a register, or of an access to it. -/
abbrev Value := BitVec 128

/-- The width of a register access. -/
inductive Width where
  | w16
  | w32
  | w64
  | w128
  deriving DecidableEq, Repr

namespace Width

def index : Width → BitVec 2
  | w16 => 0
  | w32 => 1
  | w64 => 2
  | w128 => 3

def ofIndex (b : BitVec 2) : Width :=
  if b = 0 then w16 else if b = 1 then w32 else if b = 2 then w64 else w128

@[simp] theorem ofIndex_index (w : Width) : ofIndex w.index = w := by
  cases w <;> rfl

@[simp] theorem index_ofIndex (b : BitVec 2) : (ofIndex b).index = b := by
  revert b; decide

def words : Width → Nat
  | w16 => 1
  | w32 => 2
  | w64 => 4
  | w128 => 8

def bits (w : Width) : Nat := 16 * w.words

/-- The width of that many bits, if there is one. -/
def ofBits? : Nat → Option Width
  | 16 => some w16
  | 32 => some w32
  | 64 => some w64
  | 128 => some w128
  | _ => none

/-- The sentence that reports a number of bits without a width. -/
def unsupportedMessage (bits : Nat) : String :=
  s!"unsupported register width {Numeral.decimal bits}"

def render (w : Width) : String := Numeral.decimal w.bits

/-- The value with every bit of this width set and none above it. -/
def mask (w : Width) : Value := BitVec.ofNat 128 ((1 <<< w.bits) - 1)

/-- Whether a value has no bit above this width. -/
def fits (w : Width) (v : Value) : Bool := v &&& ~~~w.mask == 0

end Width

/-! ## Words of a value -/

namespace Value

/-- The words of a value at a width, most significant first.  Bits above the
width are left out. -/
def toWords (v : Value) (w : Width) : List Word :=
  (List.range w.words).reverse.map fun i => v.extractLsb' (16 * i) 16

/-- The value of a run of words, most significant first.  Only the last
eight words count: the others leave at the top. -/
def ofWords (ws : List Word) : Value :=
  ws.foldl (fun v w => v <<< 16 ||| w.setWidth 128) 0

/-- A value is written in hexadecimal without leading zeros. -/
def render (v : Value) : String := Numeral.hex 1 v.toNat

@[simp] theorem length_toWords (v : Value) (w : Width) : (v.toWords w).length = w.words := by
  simp [toWords]

end Value

end Register

end ProbeNet
