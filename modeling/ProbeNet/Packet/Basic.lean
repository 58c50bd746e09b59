import ProbeNet.Packet.Kind

/-!
# Packets

A packet is a header of three words and a payload.  The header holds the
destination, the source and the flags word of the kind.  `Packet.encode` lays
a packet out as words and `Packet.decode` reads it back; the reserved bits of
the header are written as zeros and ignored by the reader.
-/

namespace ProbeNet

def headerWords : Nat := 3

def maxPayloadWords (maxPacketLen : Nat) : Nat := maxPacketLen - headerWords

/-- A message between two modules of the interconnect. -/
structure Packet where
  dest : Address
  src : Address
  kind : PacketKind
  /-- The words behind the header. -/
  payload : List Word
  deriving DecidableEq, Repr

namespace Packet

def packetClass (p : Packet) : PacketClass := p.kind.packetClass

/-- The length of a packet on a link, header included. -/
def lenWords (p : Packet) : Nat := headerWords + p.payload.length

/-- The packet with fields given as numbers.  The first field that is out of
range is reported, in the order of the header. -/
def ofNumbers (dest src : Nat) (c : PacketClass) (sub : Nat) (payload : List Word) :
    Except PacketError Packet := do
  let dest ← Address.ofNat dest
  let src ← Address.ofNat src
  let kind ← PacketKind.ofNat c sub
  .ok { dest, src, kind, payload }

/-- A packet that goes back to where `p` came from. -/
def reply (p : Packet) (kind : PacketKind) (payload : List Word) : Packet :=
  { dest := p.src, src := p.dest, kind, payload }

/-- The words of a packet: header first, then the payload in order. -/
def encode (p : Packet) : List Word :=
  p.dest.word :: p.src.word :: p.kind.flags :: p.payload

/-- The packet that words lay out.  Whatever follows the header is payload. -/
def decode : List Word → Except PacketError Packet
  | dest :: src :: flags :: payload => do
    let kind ← PacketKind.ofFlags flags
    .ok { dest := .ofWord dest, src := .ofWord src, kind, payload }
  | ws => .error (.tooShort ws.length)

@[simp] theorem length_encode (p : Packet) : p.encode.length = p.lenWords := by
  simp [encode, lenWords, headerWords]; omega

def checkLen (p : Packet) (max : Nat) : Except PacketError Unit :=
  if p.lenWords ≤ max then .ok () else .error (.oversized p.lenWords max)

/-- A packet on one line: where it goes, its class and subclass, its payload. -/
def render (p : Packet) : String :=
  let words := ", ".intercalate (p.payload.map fun w => Numeral.hex 4 w.toNat)
  let sub := Numeral.binary 4 p.kind.subclass.toNat
  s!"{p.src.render} -> {p.dest.render} {p.packetClass.render}/{sub} [{words}]"

end Packet

end ProbeNet
