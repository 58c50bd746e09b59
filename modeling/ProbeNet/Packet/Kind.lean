import ProbeNet.Register.Width

/-!
# Packet kinds

The third header word of a packet says what kind of packet it is: two class
bits on top, four subclass bits below them, and ten reserved bits.  The
subclass of a register packet names the step of a register access and its
width; one of its sixteen values is undefined.  The other classes give
their subclasses no meaning of their own, except that one subclass of an
event says that the event goes on in the next packet.

`PacketKind.ofFlags` and `PacketKind.flags` are the two directions.
-/

namespace ProbeNet

/-! ## Errors -/

/-- What is wrong with words, bytes or numbers that should form a packet. -/
inductive PacketError where
  | tooShort (words : Nat)
  | undefinedSubclass (sub : Subclass)
  | subclassOutOfRange (raw : Nat)
  | addressOutOfRange (raw : Nat)
  | oddLength (bytes : Nat)
  | oversized (len max : Nat)
  deriving DecidableEq, Repr

def PacketError.message : PacketError → String
  | .tooShort n => s!"packet has {Numeral.decimal n} words, at least 3 are required"
  | .undefinedSubclass s => s!"undefined register subclass {Numeral.binary 4 s.toNat}"
  | .subclassOutOfRange n => s!"subclass {Numeral.decimal n} does not fit in 4 bits"
  | .addressOutOfRange n => s!"address {Numeral.hex 4 n} does not fit in 10 bits"
  | .oddLength n => s!"datagram of {Numeral.decimal n} bytes is not a whole number of words"
  | .oversized len max =>
    s!"packet of {Numeral.decimal len} words exceeds the maximum packet length {Numeral.decimal max}"

def Address.ofNat (raw : Nat) : Except PacketError Address :=
  if raw ≤ Address.max then .ok (BitVec.ofNat 10 raw) else .error (.addressOutOfRange raw)

def Subclass.ofNat (raw : Nat) : Except PacketError Subclass :=
  if raw < 16 then .ok (BitVec.ofNat 4 raw) else .error (.subclassOutOfRange raw)

/-! ## Classes -/

/-- The class of a packet, its two highest flag bits. -/
inductive PacketClass where
  | register
  | plain
  | event
  | reserved
  deriving DecidableEq, Repr

namespace PacketClass

def bits : PacketClass → BitVec 2
  | register => 0
  | plain => 1
  | event => 2
  | reserved => 3

def ofBits (b : BitVec 2) : PacketClass :=
  if b = 0 then register else if b = 1 then plain else if b = 2 then event else reserved

def render : PacketClass → String
  | register => "REG"
  | plain => "PLAIN"
  | event => "EVENT"
  | reserved => "RESERVED"

@[simp] theorem ofBits_bits (c : PacketClass) : ofBits c.bits = c := by
  cases c <;> rfl

@[simp] theorem bits_ofBits (b : BitVec 2) : (ofBits b).bits = b := by
  revert b; decide

end PacketClass

/-! ## Register subclasses -/

/-- What a register packet says: a request, or one of its answers. -/
inductive RegisterKind where
  | readRequest (width : Register.Width)
  | writeRequest (width : Register.Width)
  | readSuccess (width : Register.Width)
  | readError
  | writeSuccess
  | writeError
  deriving DecidableEq, Repr

namespace RegisterKind

/-- The subclass that stands for a kind.  The high half names the group, the
low half the width or the kind within the group. -/
def subclass : RegisterKind → Subclass
  | readRequest w => 0#2 ++ w.index
  | writeRequest w => 1#2 ++ w.index
  | readSuccess w => 2#2 ++ w.index
  | readError => 12
  | writeSuccess => 14
  | writeError => 15

/-- The kind that a subclass stands for.  Subclass 13 stands for none. -/
def ofSubclass (s : Subclass) : Except PacketError RegisterKind :=
  let width := Register.Width.ofIndex (s.extractLsb' 0 2)
  if s < 4 then .ok (readRequest width)
  else if s < 8 then .ok (writeRequest width)
  else if s < 12 then .ok (readSuccess width)
  else if s = 12 then .ok readError
  else if s = 14 then .ok writeSuccess
  else if s = 15 then .ok writeError
  else .error (.undefinedSubclass s)

def isRequest : RegisterKind → Bool
  | readRequest _ | writeRequest _ => true
  | _ => false

/-- The kind that refuses a request; only requests have one. -/
def errorResponse? : RegisterKind → Option RegisterKind
  | readRequest _ => some readError
  | writeRequest _ => some writeError
  | _ => none

/-- The kind that grants a request; only requests have one. -/
def successResponse? : RegisterKind → Option RegisterKind
  | readRequest w => some (readSuccess w)
  | writeRequest _ => some writeSuccess
  | _ => none

/-- The name of a kind in diagnostics, with the width of the access. -/
def render : RegisterKind → String
  | readRequest w => s!"ReadRequest(W{w.render})"
  | writeRequest w => s!"WriteRequest(W{w.render})"
  | readSuccess w => s!"ReadSuccess(W{w.render})"
  | readError => "ReadError"
  | writeSuccess => "WriteSuccess"
  | writeError => "WriteError"

@[simp] theorem ofSubclass_subclass (k : RegisterKind) : ofSubclass k.subclass = .ok k := by
  cases k with
  | readRequest w => cases w <;> rfl
  | writeRequest w => cases w <;> rfl
  | readSuccess w => cases w <;> rfl
  | readError => rfl
  | writeSuccess => rfl
  | writeError => rfl

end RegisterKind

/-! ## Event subclasses -/

namespace Subclass

/-- The subclass of the last, or only, packet of an event. -/
def eventLast : Subclass := 0

/-- The subclass of an event packet that another packet of the event follows. -/
def eventContinuation : Subclass := 1

/-- Whether an event packet of this subclass is joined to the one after it.
Every subclass but one ends its event. -/
def isContinuation (s : Subclass) : Bool := s == eventContinuation

end Subclass

/-! ## Kinds -/

/-- Class and subclass of a packet in one value.  A register packet of the
undefined subclass has none. -/
inductive PacketKind where
  | register (kind : RegisterKind)
  | plain (sub : Subclass)
  | event (sub : Subclass)
  | reserved (sub : Subclass)
  deriving DecidableEq, Repr

namespace PacketKind

def packetClass : PacketKind → PacketClass
  | register _ => .register
  | plain _ => .plain
  | event _ => .event
  | reserved _ => .reserved

def subclass : PacketKind → Subclass
  | register k => k.subclass
  | plain s | event s | reserved s => s

def ofSubclass (c : PacketClass) (s : Subclass) : Except PacketError PacketKind :=
  match c with
  | .register => (RegisterKind.ofSubclass s).map register
  | .plain => .ok (plain s)
  | .event => .ok (event s)
  | .reserved => .ok (reserved s)

def ofNat (c : PacketClass) (sub : Nat) : Except PacketError PacketKind := do
  ofSubclass c (← Subclass.ofNat sub)

/-- The class that a flags word names, whatever its subclass. -/
def classOfFlags (w : Word) : PacketClass := .ofBits (w.extractLsb' 14 2)

/-- The flags word of a kind, its reserved bits zero. -/
def flags (k : PacketKind) : Word := k.packetClass.bits ++ k.subclass ++ 0#10

/-- The kind that a flags word names.  Reserved bits are not looked at. -/
def ofFlags (w : Word) : Except PacketError PacketKind :=
  ofSubclass (classOfFlags w) (w.extractLsb' 10 4)

end PacketKind

end ProbeNet
