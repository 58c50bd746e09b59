import ProbeNet.Packet.Basic

/-!
# Flits

Inside the interconnect a packet moves one word at a time.  A flit is a word
with a mark that says whether it is the last of its packet.
-/

namespace ProbeNet

/-- One word on a link. -/
structure Flit where
  word : Word
  /-- Whether the packet ends with this word. -/
  last : Bool
  deriving DecidableEq, Repr

namespace Flit

/-- The flits of a packet's words: the last word is marked, no other is. -/
def ofWords : List Word → List Flit
  | [] => []
  | [w] => [⟨w, true⟩]
  | w :: ws => ⟨w, false⟩ :: ofWords ws

@[simp] theorem length_ofWords (ws : List Word) : (ofWords ws).length = ws.length := by
  fun_induction ofWords ws <;> simp_all

@[simp] theorem map_word_ofWords (ws : List Word) : (ofWords ws).map word = ws := by
  fun_induction ofWords ws <;> simp_all

end Flit

namespace Packet

def toFlits (p : Packet) : List Flit := Flit.ofWords p.encode

/-- The packet of a run of flits.  The marks are not looked at: the run is
taken to be one packet. -/
def ofFlits (fs : List Flit) : Except PacketError Packet := decode (fs.map Flit.word)

@[simp] theorem length_toFlits (p : Packet) : p.toFlits.length = p.lenWords := by
  simp [toFlits]

@[simp] theorem ofFlits_toFlits_eq_decode (p : Packet) : ofFlits p.toFlits = decode p.encode := by
  simp [ofFlits, toFlits]

end Packet

end ProbeNet
