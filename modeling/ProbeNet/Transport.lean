import ProbeNet.Packet.Basic

/-!
# Transports

What carries packets between the host and a target, and how it fails.  The
transport in memory is a pair of bounded queues, one for each direction.
Each side has one end; a queue outlives the end that fills it, so what was
sent before an end was dropped still arrives.
-/

namespace ProbeNet

/-- Why a packet cannot be sent or received. -/
inductive TransportError where
  | closed
  /-- The system reported a failure, in its own words. -/
  | io (text : String)
  deriving DecidableEq, Repr

def TransportError.message : TransportError → String
  | .closed => "transport closed"
  | .io text => "transport i/o failed: " ++ text

/-- The two ends of a transport. -/
inductive End where
  | first
  | second
  deriving DecidableEq, Repr

def End.other : End → End
  | .first => .second
  | .second => .first

/-- One end of a transport in memory. -/
structure Mailbox where
  queue : List Packet := []
  isOpen : Bool := true
  deriving DecidableEq, Repr

/-- A transport in memory. -/
structure ChannelPair where
  depth : Nat
  first : Mailbox := {}
  second : Mailbox := {}
  deriving DecidableEq, Repr

/-- What became of an attempt that may have to wait. -/
inductive Attempt (α : Type) where
  | done (a : α)
  | failed (e : TransportError)
  /-- It would have to wait for the other side. -/
  | blocked
  deriving DecidableEq, Repr

namespace ChannelPair

def mailbox (c : ChannelPair) : End → Mailbox
  | .first => c.first
  | .second => c.second

def setMailbox (c : ChannelPair) (e : End) (m : Mailbox) : ChannelPair :=
  match e with
  | .first => { c with first := m }
  | .second => { c with second := m }

/-- Sends a packet from one end.  It waits while the queue is full. -/
def send (c : ChannelPair) (e : End) (p : Packet) : ChannelPair × Attempt Unit :=
  let there := c.mailbox e.other
  if !there.isOpen || !(c.mailbox e).isOpen then (c, .failed .closed)
  else if there.queue.length < c.depth then
    (c.setMailbox e.other { there with queue := there.queue ++ [p] }, .done ())
  else (c, .blocked)

/-- Receives a packet at one end.  It waits while there is none, unless none
can come any more. -/
def receive (c : ChannelPair) (e : End) : ChannelPair × Attempt Packet :=
  let here := c.mailbox e
  match here.queue with
  | p :: rest => (c.setMailbox e { here with queue := rest }, .done p)
  | [] =>
    if !(c.mailbox e.other).isOpen || !here.isOpen then (c, .failed .closed)
    else (c, .blocked)

def tryReceive (c : ChannelPair) (e : End) : ChannelPair × Except TransportError (Option Packet) :=
  match c.receive e with
  | (c, .done p) => (c, .ok (some p))
  | (c, .failed error) => (c, .error error)
  | (c, .blocked) => (c, .ok none)

/-- Drops one end, and with it what waits to be received there. -/
def close (c : ChannelPair) (e : End) : ChannelPair :=
  c.setMailbox e { queue := [], isOpen := false }

end ChannelPair

end ProbeNet
