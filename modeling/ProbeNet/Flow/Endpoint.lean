import ProbeNet.Packet.Flit

/-!
# Packet writers and readers

A writer turns packets into a stream of flits, a reader turns the stream back
into packets.  The reader collects flits up to one that is marked last and
decodes what it has collected.  When nothing arrives for a number of steps
in a row it says so; what it has collected stays.
-/

namespace ProbeNet

/-! ## Writers -/

/-- Packets that wait to be sent, as the flits that are left of them. -/
structure PacketWriter where
  flits : List Flit := []
  deriving DecidableEq, Repr

namespace PacketWriter

def enqueue (w : PacketWriter) (p : Packet) : PacketWriter := ⟨w.flits ++ p.toFlits⟩

def enqueueAll (w : PacketWriter) (ps : List Packet) : PacketWriter := ps.foldl enqueue w

def isIdle (w : PacketWriter) : Bool := w.flits.isEmpty

def peek (w : PacketWriter) : Option Flit := w.flits.head?

def pop (w : PacketWriter) : PacketWriter := ⟨w.flits.tail⟩

def popIf (w : PacketWriter) (taken : Bool) : PacketWriter := if taken then w.pop else w

end PacketWriter

/-! ## Readers -/

/-- After how many empty steps a reader reports that nothing arrives. -/
def defaultReadTimeout : Nat := 1000

/-- What a reader has to say after a step. -/
inductive ReadOutcome where
  | pending
  | packet (p : Packet)
  /-- The flits up to the last one are no packet; they are dropped. -/
  | malformed (e : PacketError)
  | timedOut
  deriving DecidableEq, Repr

/-- A reader of packets. -/
structure PacketReader where
  flits : List Flit := []
  /-- How many empty steps there were in a row. -/
  idleSteps : Nat := 0
  /-- How many of them are reported. -/
  timeout : Nat := defaultReadTimeout
  deriving DecidableEq, Repr

namespace PacketReader

def inPacket (r : PacketReader) : Bool := !r.flits.isEmpty

/-- One step with a source that shows `input`.  The reader always takes it. -/
def tick (r : PacketReader) : Option Flit → PacketReader × ReadOutcome
  | none =>
    if r.timeout ≤ r.idleSteps + 1 then ({ r with idleSteps := 0 }, .timedOut)
    else ({ r with idleSteps := r.idleSteps + 1 }, .pending)
  | some f =>
    let flits := r.flits ++ [f]
    if f.last then
      let outcome :=
        match Packet.ofFlits flits with
        | .ok p => .packet p
        | .error e => .malformed e
      ({ r with flits := [], idleSteps := 0 }, outcome)
    else ({ r with flits, idleSteps := 0 }, .pending)

end PacketReader

/-! ## A writer and a reader on one wire -/

/-- A writer, a queue of flits that it sends into, and a reader of that queue. -/
structure WireBench where
  writer : PacketWriter := {}
  wire : List Flit := []
  reader : PacketReader := {}
  deriving DecidableEq, Repr

namespace WireBench

/-- Puts flits onto the wire that the writer did not send. -/
def feed (b : WireBench) (fs : List Flit) : WireBench := { b with wire := b.wire ++ fs }

/-- One step of the writer, with a wire that takes the flit or not.  Returns
whether a flit moved. -/
def write (b : WireBench) (ready : Bool) : WireBench × Bool :=
  match b.writer.peek with
  | some f =>
    if ready then ({ b with writer := b.writer.pop, wire := b.wire ++ [f] }, true) else (b, false)
  | none => (b, false)

def read (b : WireBench) : WireBench × ReadOutcome :=
  let (reader, outcome) := b.reader.tick b.wire.head?
  ({ b with reader, wire := b.wire.tail }, outcome)

end WireBench

end ProbeNet
