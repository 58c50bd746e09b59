import ProbeNet.Session.State
import ProbeNet.Target.Simulated
import ProbeNet.Text.Console

/-!
# Operations

A call to a session is a program that now and then has to wait.  An
`Operation` is such a program up to the point where it waits for something:
for a register access, for the transport, for an event, or for time to pass.
What comes in between is done at once.  Other operations may run while one
waits, so it looks at the state again afterwards.

Operations that run at the same time share an allowance of steps.  Waiting
for something takes steps of it when the waiting is over; `step` takes one
and waits only if none is left.
-/

namespace ProbeNet

open Register

/-- A program over the state of a session that ends with an `α`. -/
inductive Operation (α : Type) where
  | done (a : α)
  | look (next : Session → Operation α)
  | change (f : Session → Session) (next : Operation α)
  | step (next : Operation α)
  /-- It gives up the connection, and waits until nothing is received any more;
  calls that have no result yet fail. -/
  | hangUp (next : Operation α)
  | access (m : Address) (t : Transaction) (next : Except SessionError Value → Operation α)
  /-- It waits until the transport has taken a packet at one of its ends. -/
  | send (e : End) (p : Packet) (next : Except TransportError Unit → Operation α)
  /-- It waits for an event, or until so many milliseconds are over; `none`
  says that no event came in that time. -/
  | receive (wait : Option Nat) (next : Option (Except SessionError Packet) → Operation α)
  /-- It waits until the simulated target has done something to itself, and
  learns what the target was like before; `none` says that there is none. -/
  | ask (f : SimulatedTarget → SimulatedTarget) (next : Option SimulatedTarget → Operation α)
  /-- It waits until so many milliseconds are over. -/
  | pause (ms : Nat) (next : Operation α)
  | print (text : Console) (next : Operation α)

namespace Operation

variable {α β : Type}

/-- Goes on with another program at the end. -/
def bind (o : Operation α) (f : α → Operation β) : Operation β :=
  match o with
  | done a => f a
  | look next => look fun s => (next s).bind f
  | change g next => change g (next.bind f)
  | step next => step (next.bind f)
  | hangUp next => hangUp (next.bind f)
  | access m t next => access m t fun r => (next r).bind f
  | send e p next => send e p fun r => (next r).bind f
  | receive wait next => receive wait fun r => (next r).bind f
  | ask g next => ask g fun t => (next t).bind f
  | pause ms next => pause ms (next.bind f)
  | print text next => print text (next.bind f)

instance : Monad Operation where
  pure := done
  bind := bind

def state : Operation Session := look done

def modify (f : Session → Session) : Operation Unit := change f (done ())

def takeStep : Operation Unit := step (done ())

/-- Puts packets into the transport at one end, one after the other, up to the
first that fails. -/
def sendEach (e : End) : List Packet → Operation (Except TransportError Unit)
  | [] => done (.ok ())
  | p :: ps => send e p fun
    | .ok () => sendEach e ps
    | .error error => done (.error error)

/-- Asks the simulated target, as long as it runs. -/
def askTarget (f : SimulatedTarget → SimulatedTarget × Except TargetError β) :
    Operation (Except TargetError β) :=
  ask (fun t => (f t).1) fun
    | some t => done (f t).2
    | none => done (.error .stopped)

end Operation

/-- An operation that may fail. -/
abbrev SessionM := ExceptT SessionError Operation

namespace SessionM

def state : SessionM Session := ExceptT.lift Operation.state

def modify (f : Session → Session) : SessionM Unit := ExceptT.lift (Operation.modify f)

def access (m : Address) (t : Transaction) : SessionM Value :=
  ExceptT.mk (.access m t .done)

def takeStep : SessionM Unit := ExceptT.lift Operation.takeStep

/-- Waits until the transport has taken a packet. -/
def send (p : Packet) : SessionM Unit :=
  ExceptT.mk (.send .first p fun
    | .ok () => .done (.ok ())
    | .error e => .done (.error (.transport e)))

/-- The outcome of an operation, whether it failed or not. -/
def attempt {α : Type} (x : SessionM α) : SessionM (Except SessionError α) :=
  ExceptT.lift x.run

end SessionM

end ProbeNet
