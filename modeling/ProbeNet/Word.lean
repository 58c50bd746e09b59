import ProbeNet.Text.Numeral

/-!
# Words, bytes and addresses

Everything on the interconnect is a run of 16-bit words.  A word is two
bytes in a datagram, the more significant byte first.  A module is named by
an address of ten bits, which a header word carries in its low bits.
-/

namespace ProbeNet

/-- The unit of every link, header and payload. -/
abbrev Word := BitVec 16

/-- The unit of a datagram. -/
abbrev Byte := BitVec 8

namespace Word

/-- The two bytes of a word, the more significant one first. -/
def bytes (w : Word) : List Byte := [w.extractLsb' 8 8, w.extractLsb' 0 8]

/-- The word of two bytes, the more significant one first. -/
def ofBytes (high low : Byte) : Word := high ++ low

@[simp] theorem length_bytes (w : Word) : w.bytes.length = 2 := rfl

end Word

/-- The address of a module: ten bits. -/
abbrev Address := BitVec 10

namespace Address

/-- The highest address there is. -/
def max : Nat := 0x3ff

/-- The address in a header word.  The six bits above it are reserved and
are not looked at. -/
def ofWord (w : Word) : Address := w.setWidth 10

/-- The header word that carries an address, its reserved bits zero. -/
def word (a : Address) : Word := a.setWidth 16

def render (a : Address) : String := Numeral.hex 3 a.toNat

@[simp] theorem ofWord_word (a : Address) : ofWord a.word = a := by
  simp [ofWord, word, BitVec.setWidth_setWidth_of_le]

/-- Carrying an address read from a word clears the reserved bits. -/
theorem word_ofWord (w : Word) : (ofWord w).word = w &&& 0x3ff#16 := by
  apply BitVec.eq_of_toNat_eq
  have mask : (0x3ff#16).toNat = 2 ^ 10 - 1 := rfl
  rw [BitVec.toNat_and, mask, Nat.and_two_pow_sub_one_eq_mod]
  simp only [ofWord, word, BitVec.toNat_setWidth]
  omega

end Address

/-- The subclass field of a packet: four bits. -/
abbrev Subclass := BitVec 4

end ProbeNet
