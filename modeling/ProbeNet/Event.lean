import ProbeNet.Packet.Basic
import ProbeNet.Table

/-!
# Events

An event is a message of any length.  One that is longer than a packet goes
out as a run of event packets between the same two modules; every packet but
the last says that the event goes on.  The receiver joins the payloads of
each pair of source and destination in the order of arrival, until a packet
comes that does not go on.

`fragment` makes the run, a `Reassembler` puts it together again.
-/

namespace ProbeNet

/-- Why events cannot be split or put together. -/
inductive EventError where
  | zeroLimit
  /-- The last packet was to say that the event goes on. -/
  | continuationAsFinal
  /-- A packet of another class came in. -/
  | notAnEvent (c : PacketClass)
  /-- A run grew longer than is allowed. -/
  | runTooLong (src dest : Address) (limit : Nat)
  deriving DecidableEq, Repr

def EventError.message : EventError → String
  | .zeroLimit => "per-packet payload limit must be at least one word"
  | .continuationAsFinal => "the final packet of an event cannot carry the continuation subclass"
  | .notAnEvent c => s!"{c.render} packet passed to event reassembly"
  | .runTooLong src dest limit =>
    s!"event run {src.render} -> {dest.render} exceeded {Numeral.decimal limit} words"

/-! ## Splitting -/

/-- The packets of an event whose payload is still to be sent, each with at
most `limit + 1` words of it. -/
def fragments (dest src : Address) (final : Subclass) (limit : Nat) (payload : List Word) :
    List Packet :=
  if payload.length ≤ limit + 1 then [{ dest, src, kind := .event final, payload }]
  else
    { dest, src, kind := .event .eventContinuation, payload := payload.take (limit + 1) } ::
      fragments dest src final limit (payload.drop (limit + 1))
termination_by payload.length

/-- Splits an event into packets of at most `maxWords` payload words, the last
of which carries the subclass `final`.  An event without words is one packet. -/
def fragmentWith (dest src : Address) (payload : List Word) (maxWords : Nat) (final : Subclass) :
    Except EventError (List Packet) :=
  match maxWords with
  | 0 => .error .zeroLimit
  | limit + 1 =>
    if final.isContinuation then .error .continuationAsFinal
    else .ok (fragments dest src final limit payload)

def fragment (dest src : Address) (payload : List Word) (maxWords : Nat) :
    Except EventError (List Packet) :=
  fragmentWith dest src payload maxWords .eventLast

/-! ## Putting together -/

/-- A complete event. -/
structure Event where
  src : Address
  dest : Address
  kind : Subclass
  /-- The payloads of its packets, joined. -/
  payload : List Word
  packets : Nat
  deriving DecidableEq, Repr

/-- The event as one packet, however long that is. -/
def Event.toPacket (e : Event) : Packet :=
  { dest := e.dest, src := e.src, kind := .event e.kind, payload := e.payload }

/-- The part of an event that has arrived. -/
structure EventRun where
  payload : List Word := []
  packets : Nat := 0
  deriving DecidableEq, Repr

/-- Joins the packets of events, for each pair of source and destination. -/
structure Reassembler where
  /-- The runs that have begun and not ended, by source and destination. -/
  runs : Table (Address × Address) EventRun
  /-- How many payload words a run may have. -/
  wordLimit : Option Nat
  deriving DecidableEq, Repr

namespace Reassembler

def initial (wordLimit : Option Nat) : Reassembler := { runs := .empty, wordLimit }

def pendingRuns (r : Reassembler) : Nat := r.runs.size

/-- The run of a pair with one more payload. -/
def extend (r : Reassembler) (key : Address × Address) (payload : List Word) : EventRun :=
  let run := (r.runs.find? key).getD {}
  { payload := run.payload ++ payload, packets := run.packets + 1 }

/-- Whether a run of so many words is too long. -/
def exceeds (r : Reassembler) (words : Nat) : Bool := r.wordLimit.any (· < words)

/-- Takes a packet in.  Returns the event that it completes.  A run that grows
too long is forgotten. -/
def push (r : Reassembler) (p : Packet) : Reassembler × Except EventError (Option Event) :=
  match p.kind with
  | .event sub =>
    let key := (p.src, p.dest)
    let run := r.extend key p.payload
    if r.exceeds run.payload.length then
      ({ r with runs := r.runs.erase key },
        .error (.runTooLong p.src p.dest (r.wordLimit.getD 0)))
    else if sub.isContinuation then ({ r with runs := r.runs.insert key run }, .ok none)
    else
      ({ r with runs := r.runs.erase key },
        .ok (some { src := p.src, dest := p.dest, kind := sub, payload := run.payload,
                    packets := run.packets }))
  | other => (r, .error (.notAnEvent other.packetClass))

end Reassembler

end ProbeNet
