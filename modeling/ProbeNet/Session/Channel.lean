import ProbeNet.Session.Error

/-!
# Register channels

Register accesses to one module go through its channel, one at a time.  A
call waits until the channel takes it.  Then answers that are still there
from before are thrown away, the request is sent, and the first answer that
comes in, or the end of the waiting time, concludes the call.

The steps of a channel are separate functions: between any two of them other
channels may act and packets may arrive.  Sending may have to wait for the
transport; the time for the answer starts when the request is sent.
-/

namespace ProbeNet

open Register

/-- How many answers a channel keeps before it drops further ones. -/
def responseQueueDepth : Nat := 4

/-- How many calls wait for a channel; further ones wait in a line in front of
it. -/
def callQueueDepth : Nat := 16

/-- A call for a register access.  The number tells the calls of a session
apart. -/
structure RegisterCall where
  id : Nat
  transaction : Transaction
  deriving DecidableEq, Repr

/-- What a channel does. -/
inductive ChannelPhase where
  /-- It waits for a call. -/
  | idle
  /-- It has a request that the transport has not taken yet. -/
  | sending (call : RegisterCall)
  /-- It waits for the answer until the deadline. -/
  | waiting (call : RegisterCall) (deadline : Nat)
  deriving DecidableEq, Repr

/-- The register channel of a module. -/
structure RegisterChannel where
  /-- The calls that wait, the oldest first. -/
  calls : List RegisterCall := []
  /-- The answers that have come in, the oldest first. -/
  responses : List Packet := []
  phase : ChannelPhase := .idle
  deriving DecidableEq, Repr

namespace RegisterChannel

/-- How many further calls the channel has room for. -/
def room (c : RegisterChannel) : Nat := callQueueDepth - c.calls.length

def submit (c : RegisterChannel) (call : RegisterCall) : RegisterChannel :=
  { c with calls := c.calls ++ [call] }

/-- Adds an answer, unless too many are there. -/
def route (c : RegisterChannel) (p : Packet) : RegisterChannel :=
  if c.responses.length < responseQueueDepth then { c with responses := c.responses ++ [p] } else c

/-- Takes the next call, and throws away the answers that are there. -/
def take (c : RegisterChannel) : RegisterChannel :=
  match c.phase, c.calls with
  | .idle, call :: calls => { calls, responses := [], phase := .sending call }
  | _, _ => c

def request? (c : RegisterChannel) (module host : Address) : Option Packet :=
  match c.phase with
  | .sending call => some (call.transaction.toRequest module host)
  | _ => none

def sent (c : RegisterChannel) (deadline : Nat) : RegisterChannel :=
  match c.phase with
  | .sending call => { c with phase := .waiting call deadline }
  | _ => c

/-- The transport has refused the request, which concludes the call. -/
def refuse (c : RegisterChannel) (e : TransportError) :
    RegisterChannel × Option (RegisterCall × Except SessionError Value) :=
  match c.phase with
  | .sending call => ({ c with phase := .idle }, some (call, .error (.transport e)))
  | _ => (c, none)

/-- Concludes the call with the first answer, if the channel waits for one and
one is there; an answer counts even when the time is over.  Without an
answer the end of the time concludes the call. -/
def conclude (c : RegisterChannel) (module : Address) (now : Nat) :
    RegisterChannel × Option (RegisterCall × Except SessionError Value) :=
  match c.phase with
  | .waiting call deadline =>
    match c.responses with
    | p :: responses =>
      ({ c with responses, phase := .idle },
        some (call, checkResponse module call.transaction p))
    | [] =>
      if deadline ≤ now then
        ({ c with phase := .idle },
          some (call, .error (.timeout module call.transaction.address)))
      else (c, none)
  | _ => (c, none)

/-- The calls that have no result yet, the one in hand first. -/
def outstanding (c : RegisterChannel) : List RegisterCall :=
  match c.phase with
  | .idle => c.calls
  | .sending call => call :: c.calls
  | .waiting call _ => call :: c.calls

def deadline? (c : RegisterChannel) : Option Nat :=
  match c.phase with
  | .waiting _ deadline => some deadline
  | _ => none

end RegisterChannel

end ProbeNet
