import ProbeNet.Packet.Flit

/-!
# The packet arbiter

Several sources share one sink.  A source that is granted the sink keeps it
until the last flit of its packet is through, so packets are never mixed.
The next grant goes to the first source with a flit, searched in turn from
the one behind the previous winner.
-/

namespace ProbeNet

/-- A round-robin arbiter of packets. -/
structure Arbiter where
  /-- The source that holds the sink. -/
  granted : Option Nat := none
  /-- The source at which the next search starts. -/
  next : Nat := 0
  deriving DecidableEq, Repr

namespace Arbiter

/-- The sources in the order in which a search looks at them. -/
def searchOrder (a : Arbiter) (n : Nat) : List Nat :=
  (List.range n).map fun k => (a.next + k) % n

def headOf (heads : List (Option Flit)) (i : Nat) : Option Flit := heads[i]?.join

/-- The source that holds the sink in this step: the granted one, or else the
first of the search that shows a flit. -/
def winner (a : Arbiter) (heads : List (Option Flit)) : Option Nat :=
  match a.granted with
  | some i => some i
  | none => (a.searchOrder heads.length).find? fun i => (headOf heads i).isSome

/-- One step between sources that show `heads` and a sink that is ready or
not.  Returns the flit presented to the sink, and which source it is from;
it has moved if the sink was ready. -/
def tick (a : Arbiter) (heads : List (Option Flit)) (ready : Bool) :
    Arbiter × Option (Nat × Flit) :=
  match a.winner heads with
  | none => (a, none)
  | some i =>
    match headOf heads i with
    | none => ({ a with granted := some i }, none)
    | some f =>
      if ready && f.last then
        ({ granted := none, next := (i + 1) % heads.length }, some (i, f))
      else ({ a with granted := some i }, some (i, f))

end Arbiter

/-! ## An arbiter between queues and a sink -/

/-- An arbiter with queues of flits in front of it. -/
structure ArbiterBench where
  arbiter : Arbiter := {}
  sources : List (List Flit)
  deriving DecidableEq, Repr

namespace ArbiterBench

def ofCount (n : Nat) : ArbiterBench := { sources := List.replicate n [] }

def feed (b : ArbiterBench) (i : Nat) (fs : List Flit) : ArbiterBench :=
  { b with sources := b.sources.modify i (· ++ fs) }

/-- One step against a sink that is ready or not.  Returns the flit that moved
and which queue it is from. -/
def tick (b : ArbiterBench) (ready : Bool) : ArbiterBench × Option (Nat × Flit) :=
  let (arbiter, offered) := b.arbiter.tick (b.sources.map List.head?) ready
  match offered with
  | some (i, f) =>
    if ready then ({ arbiter, sources := b.sources.modify i List.tail }, some (i, f))
    else ({ b with arbiter }, none)
  | none => ({ b with arbiter }, none)

end ArbiterBench

end ProbeNet
