import ProbeNet.Packet.Basic

/-!
# Datagrams

A packet in a datagram is its words one after the other, each with its more
significant byte first, and nothing else.  The datagram's length is the only
framing there is.

Datagrams are written and read without going through the words of a packet:
the header is a record of fixed size in front of the payload, and the payload
is looked at as a run of words.
-/

namespace ProbeNet

def bytesOfWords (ws : List Word) : List Byte := ws.flatMap Word.bytes

/-- The words of a run of bytes, or `none` when a byte is left over. -/
def wordsOfBytes? : List Byte → Option (List Word)
  | [] => some []
  | [_] => none
  | high :: low :: rest => (wordsOfBytes? rest).map (Word.ofBytes high low :: ·)

/-- The words in front of the payload of a datagram. -/
structure DatagramHeader where
  dest : Word
  src : Word
  flags : Word
  deriving DecidableEq, Repr

namespace DatagramHeader

/-- How many bytes a header has. -/
def size : Nat := 2 * headerWords

def bytes (h : DatagramHeader) : List Byte := h.dest.bytes ++ h.src.bytes ++ h.flags.bytes

/-- The header that a datagram begins with, unless it is too short. -/
def ofPrefix? : List Byte → Option DatagramHeader
  | d₁ :: d₀ :: s₁ :: s₀ :: f₁ :: f₀ :: _ =>
    some { dest := .ofBytes d₁ d₀, src := .ofBytes s₁ s₀, flags := .ofBytes f₁ f₀ }
  | _ => none

end DatagramHeader

namespace Packet

def datagramHeader (p : Packet) : DatagramHeader :=
  { dest := p.dest.word, src := p.src.word, flags := p.kind.flags }

def toBytes (p : Packet) : List Byte := p.datagramHeader.bytes ++ bytesOfWords p.payload

/-- The packet of a datagram.  A byte left over is reported before anything
else, a missing header before an undefined kind. -/
def ofBytes (bytes : List Byte) : Except PacketError Packet :=
  if bytes.length % 2 ≠ 0 then .error (.oddLength bytes.length)
  else
    match DatagramHeader.ofPrefix? bytes with
    | none => .error (.tooShort (bytes.length / 2))
    | some header =>
      match wordsOfBytes? (bytes.drop DatagramHeader.size) with
      | none => .error (.oddLength bytes.length)
      | some payload => do
        let kind ← PacketKind.ofFlags header.flags
        .ok { dest := .ofWord header.dest, src := .ofWord header.src, kind, payload }

end Packet

end ProbeNet
