import ProbeNet.Packet.Flit

/-!
# Elastic buffers

A first-in first-out store of flits between two links.  A full buffer
refuses a flit and leaves it with the producer.  A streaming buffer shows
every flit as soon as it is stored; a whole-packet buffer shows nothing of a
packet before its last flit is stored.

A whole-packet buffer must be deep enough for the longest packet.  Otherwise
a packet could fill it, never become complete, and never leave.
-/

namespace ProbeNet

/-- When a buffer shows the flits it holds. -/
inductive Admission where
  /-- At once. -/
  | streaming
  /-- When their packet is complete. -/
  | wholePacket
  deriving DecidableEq, Repr

/-- Fill levels that raise the status flags of a buffer. -/
structure Watermarks where
  /-- The least fill that counts as almost full. -/
  almostFull : Nat
  /-- The greatest fill that counts as almost empty. -/
  almostEmpty : Nat
  deriving DecidableEq, Repr

/-- Why a buffer cannot be built. -/
inductive BufferError where
  | zeroDepth
  | tooShallow (depth maxPacketLen : Nat)
  deriving DecidableEq, Repr

def BufferError.message : BufferError → String
  | .zeroDepth => "buffer depth must be at least one flit"
  | .tooShallow depth max =>
    s!"buffer depth {Numeral.decimal depth} cannot hold a packet of {Numeral.decimal max} words"

/-- A buffer of flits. -/
structure Buffer where
  /-- The flits it holds, oldest first. -/
  flits : List Flit
  depth : Nat
  admission : Admission
  /-- How many of the flits end a packet. -/
  complete : Nat
  /-- The levels of the status flags, if there are any. -/
  watermarks : Option Watermarks
  deriving DecidableEq, Repr

namespace Buffer

def empty (depth : Nat) (admission : Admission) : Buffer :=
  { flits := [], depth, admission, complete := 0, watermarks := none }

/-- A buffer that shows flits at once. -/
def streaming (depth : Nat) : Except BufferError Buffer :=
  if depth = 0 then .error .zeroDepth else .ok (empty depth .streaming)

/-- A buffer that shows complete packets only. -/
def wholePacket (depth maxPacketLen : Nat) : Except BufferError Buffer :=
  if depth = 0 then .error .zeroDepth
  else if depth < maxPacketLen then .error (.tooShallow depth maxPacketLen)
  else .ok (empty depth .wholePacket)

def withWatermarks (b : Buffer) (w : Watermarks) : Buffer := { b with watermarks := some w }

def size (b : Buffer) : Nat := b.flits.length

def isEmpty (b : Buffer) : Bool := b.flits.isEmpty

def isFull (b : Buffer) : Bool := b.depth ≤ b.size

def ready (b : Buffer) : Bool := !b.isFull

def almostFull (b : Buffer) : Bool := b.watermarks.any fun w => w.almostFull ≤ b.size

def almostEmpty (b : Buffer) : Bool := b.watermarks.any fun w => b.size ≤ w.almostEmpty

def packetSize (b : Buffer) : Nat :=
  match b.flits.findIdx? Flit.last with
  | some i => i + 1
  | none => b.size

/-- Whether the oldest flit is shown. -/
def headVisible (b : Buffer) : Bool :=
  match b.admission with
  | .streaming => true
  | .wholePacket => 0 < b.complete

def peek (b : Buffer) : Option Flit := if b.headVisible then b.flits.head? else none

def push (b : Buffer) (f : Flit) : Buffer :=
  if b.ready then
    { b with flits := b.flits ++ [f], complete := b.complete + f.last.toNat }
  else b

/-- The buffer after a step in which a producer presented a flit or none. -/
def offer (b : Buffer) : Option Flit → Buffer
  | none => b
  | some f => b.push f

def pop (b : Buffer) : Buffer :=
  match b.peek with
  | none => b
  | some f => { b with flits := b.flits.tail, complete := b.complete - f.last.toNat }

def popIf (b : Buffer) (taken : Bool) : Buffer := if taken then b.pop else b

/-- One step between a source that shows `input` and a sink that is ready or
not.  The head leaves first, so a full buffer whose head is taken has room
for the input in the same step.  Returns the flit that left and whether the
input was taken. -/
def tick (b : Buffer) (input : Option Flit) (ready : Bool) : Buffer × Option Flit × Bool :=
  let sent := if ready then b.peek else none
  let b := b.popIf sent.isSome
  (b.offer input, sent, input.isSome && b.ready)

end Buffer

/-! ## A buffer between a queue and a sink -/

/-- A buffer with a queue of flits in front of it. -/
structure BufferBench where
  buffer : Buffer
  source : List Flit := []
  deriving DecidableEq, Repr

namespace BufferBench

def feed (b : BufferBench) (fs : List Flit) : BufferBench := { b with source := b.source ++ fs }

/-- One step against a sink that is ready or not.  Returns the flit that left. -/
def tick (b : BufferBench) (ready : Bool) : BufferBench × Option Flit :=
  let (buffer, sent, taken) := b.buffer.tick b.source.head? ready
  ({ buffer, source := if taken then b.source.tail else b.source }, sent)

end BufferBench

end ProbeNet
