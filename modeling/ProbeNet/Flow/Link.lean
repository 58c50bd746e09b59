import ProbeNet.Packet.Flit

/-!
# Links

A link joins two components and holds at most one flit.  The consumer makes
the link ready again by taking the flit out.  A producer presents a flit; a
free link takes it, an occupied one leaves it with the producer and counts a
stall.

Every component of the interconnect works in this way: in one step it sees
the flit that its source shows and whether its sink is ready, it says which
flit it presents to the sink, and the flit has moved if the sink was ready.
No flit is ever lost by being refused.
-/

namespace ProbeNet

/-- A link of one flit. -/
structure Link where
  slot : Option Flit := none
  transfers : Nat := 0
  stalls : Nat := 0
  deriving DecidableEq, Repr

namespace Link

def ready (l : Link) : Bool := l.slot.isNone

def isValid (l : Link) : Bool := l.slot.isSome

def push (l : Link) (f : Flit) : Link :=
  if l.ready then { l with slot := some f, transfers := l.transfers + 1 }
  else { l with stalls := l.stalls + 1 }

/-- The link after a step in which a producer presented a flit or none. -/
def offer (l : Link) : Option Flit → Link
  | none => l
  | some f => l.push f

def pop (l : Link) : Link := { l with slot := none }

def popIf (l : Link) (taken : Bool) : Link := if taken then l.pop else l

end Link

/-! ## A link between a queue and a sink -/

/-- A link with a queue of flits in front of it and a sink behind it. -/
structure LinkBench where
  link : Link := {}
  source : List Flit := []
  received : List Flit := []
  deriving DecidableEq, Repr

namespace LinkBench

def feed (b : LinkBench) (fs : List Flit) : LinkBench := { b with source := b.source ++ fs }

/-- Presents the head of the queue to the link.  Returns the flit that moved. -/
def moveIn (b : LinkBench) : LinkBench × Option Flit :=
  match b.source with
  | [] => (b, none)
  | f :: rest =>
    if b.link.ready then ({ b with link := b.link.push f, source := rest }, some f)
    else ({ b with link := b.link.push f }, none)

/-- Presents the link's flit to the sink.  Returns the flit that moved. -/
def moveOut (b : LinkBench) (ready : Bool) : LinkBench × Option Flit :=
  match b.link.slot with
  | some f =>
    if ready then ({ b with link := b.link.pop, received := b.received ++ [f] }, some f)
    else (b, none)
  | none => (b, none)

end LinkBench

end ProbeNet
