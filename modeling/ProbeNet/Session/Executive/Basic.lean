import ProbeNet.Session.Agenda
import ProbeNet.Session.Calls
import ProbeNet.Session.Line
import ProbeNet.Target.Scripted

/-!
# What an executive holds

An executive runs the operations of a session against a target.  It holds the
session, the target, the transport between them with the lines in front of
its two ends, and an agenda.  This module has what all turns share: steps of
the allowance, packets that go into the transport and come out of it, results
that are given to operations, and the two sides going away.
-/

namespace ProbeNet

open Register

/-! ## Targets -/

/-- The other side of a session. -/
inductive Peer where
  | simulated (t : SimulatedTarget)
  | scripted (t : ScriptedTarget)
  /-- Somebody else takes the packets and brings the answers. -/
  | remote

/-- How many packets the transport holds in each direction. -/
def transportDepth : Nat := 64

/-- A packet that a scripted target sends later. -/
structure Delivery where
  packet : Packet
  /-- How many milliseconds later. -/
  delayMs : Nat
  /-- Whether the time has begun to run. -/
  begun : Bool := false
  deriving DecidableEq, Repr

/-- What is left to do when a session has given up its connection. -/
structure Farewell where
  callers : List Nat
  /-- The operation that waits until nothing is received any more, if one does. -/
  leaver : Option Nat
  deriving DecidableEq, Repr

/-! ## The state -/

/-- How far an operation has come with what it waits for. -/
inductive Stage where
  /-- It has not begun. -/
  | fresh
  /-- It waits in a line, or a step is missing. -/
  | lined
  /-- It waits for the outcome. -/
  | underway
  deriving DecidableEq, Repr

/-- An operation that waits. -/
structure Waiting (α : Type) where
  operation : Operation α
  stage : Stage

/-- A session, a target, what is between them, and the operations that run. -/
structure Executive (α : Type) where
  session : Session
  peer : Peer
  agenda : Agenda := { ready := [.target] }
  /-- The first end is the host's, the second one the target's. -/
  transport : ChannelPair := { depth := transportDepth }
  /-- Those who wait for room to send something to the target. -/
  lineToTarget : Line Task := {}
  /-- Those who wait for room to send something to the host. -/
  lineToHost : Line Task := {}
  /-- The ends at which somebody is about to receive. -/
  receiving : List End := []
  /-- A packet that the receiver has taken but not dispatched. -/
  undispatched : Option Packet := none
  /-- The operations that wait for room in the queues of register channels. -/
  callLines : Table Address (Line Task) := .empty
  /-- The operation that has the event queue for itself. -/
  eventHolder : Option Nat := none
  /-- The operations that wait for the event queue. -/
  eventLine : Line Task := {}
  /-- Connections that have been given up. -/
  farewells : List Farewell := []
  /-- The packets that the target is sending, and how many milliseconds later. -/
  outbox : List (Nat × Packet) := []
  /-- The steps that a simulated target has left of its burst. -/
  burstLeft : Option Nat := none
  askers : List Nat := []
  deliveries : Table Nat Delivery := .empty
  nextDelivery : Nat := 0
  waiting : Table Nat (Waiting α) := .empty
  /-- Whether the operations are so many that only those are looked at that
  something has happened to. -/
  crowded : Bool := false
  nextId : Nat := 0
  /-- The results of the operations that have ended, by their numbers. -/
  results : Table Nat α := .empty
  /-- The calls of handlers, the last one first. -/
  handled : List HandlerCall := []
  /-- The packets that a scripted target has received, the last one first. -/
  received : List Packet := []
  console : Console := {}

namespace Executive

variable {α : Type}

/-! ## Agenda -/

def plan (x : Executive α) (f : Agenda → Agenda) : Executive α := { x with agenda := f x.agenda }

def wake (x : Executive α) (t : Task) : Executive α := x.plan (·.wake t)

def wakeAll (x : Executive α) (ts : List Task) : Executive α := x.plan (·.wakeAll ts)

def ring (x : Executive α) (b : Bell) : Executive α := x.plan (·.ring b)

def giveWay (x : Executive α) (t : Task) : Executive α := x.plan (·.giveWay t)

/-- Whether the allowance is used up. -/
def isSpent (x : Executive α) : Bool := x.agenda.allowance = 0

/-- Takes a step of the allowance. -/
def spend (x : Executive α) : Executive α :=
  x.plan fun a => { a with allowance := a.allowance - 1 }

def clock (x : Executive α) : Nat := x.agenda.clock

/-! ## Transport -/

/-- The line of those who send from an end. -/
def senders (x : Executive α) : End → Line Task
  | .first => x.lineToTarget
  | .second => x.lineToHost

/-- The executive with the line of those who send from an end replaced. -/
def setSenders (x : Executive α) (l : Line Task) : End → Executive α
  | .first => { x with lineToTarget := l }
  | .second => { x with lineToHost := l }

/-- Puts a packet of somebody into the transport at one end.  Somebody who is
blocked gets a turn when it is worth trying again. -/
def put (x : Executive α) (e : End) (p : Packet) (who : Task) : Executive α × Attempt Unit :=
  if x.isSpent then (x.giveWay who, .blocked)
  else
    let room := x.transport.depth - (x.transport.mailbox e.other).queue.length
    match x.transport.send e p with
    | (_, .failed error) => (x.spend, .failed error)
    | (transport, _) =>
      match (x.senders e).enter room who with
      | (line, true) =>
        (({ x with transport }.setSenders line e).spend.ring (.packets e.other), .done ())
      | (line, false) => (x.setSenders line e, .blocked)

/-- A packet has been taken at an end, which makes room for those who send to
it. -/
def makeRoom (x : Executive α) (e : End) : Executive α :=
  let (line, next) := (x.senders e.other).vacate
  (x.setSenders line e.other).wakeAll next.toList

/-- Takes a packet at an end.  Getting hold of the end takes a step and
receiving takes another one; an end that somebody waits at stays held. -/
def take (x : Executive α) (e : End) (who : Task) : Executive α × Attempt Packet :=
  if x.isSpent then (x.giveWay who, .blocked)
  else
    let x := if e ∈ x.receiving then x else { x with receiving := e :: x.receiving }.spend
    if x.isSpent then (x.giveWay who, .blocked)
    else
      match x.transport.receive e with
      | (transport, .done p) =>
        let receiving := x.receiving.erase e
        (({ x with transport, receiving }.spend).makeRoom e, .done p)
      | (_, .failed error) =>
        ({ x with receiving := x.receiving.erase e }.spend, .failed error)
      | (_, .blocked) => (x.plan (·.listen (.packets e)), .blocked)

def takeAll (x : Executive α) (e : End) : Executive α × List Packet :=
  let here := x.transport.mailbox e
  let x := { x with transport := x.transport.setMailbox e { here with queue := [] } }
  (here.queue.foldl (fun x _ => x.makeRoom e) x, here.queue)

/-- A packet of a remote target arrives.  If there is no room for it, it is
lost. -/
def arrive (x : Executive α) (p : Packet) : Executive α :=
  match x.transport.send .second p with
  | (transport, .done ()) => { x with transport }.ring (.packets .first)
  | _ => x

/-! ## Operations -/

def park (x : Executive α) (id : Nat) (operation : Operation α) (stage : Stage) : Executive α :=
  { x with waiting := x.waiting.insert id { operation, stage } }

/-- Lets an operation go on with another program.  It has a look as soon as it
can, if it listens for the outcome. -/
def resume (x : Executive α) (id : Nat) (o : Operation α) : Executive α :=
  (x.park id (.step o) .fresh).ring (.outcome id)

/-- Gives the result of a register access to the operation that waits for it. -/
def conclude (x : Executive α) (id : Nat) (r : Except SessionError Value) : Executive α :=
  match x.waiting.find? id with
  | some { operation := .access _ _ next, .. } => x.resume id (next r)
  | _ => x

/-- Tells an operation that has a question to the target what the target was
like before. -/
def tell (x : Executive α) (id : Nat) (t : Option SimulatedTarget) : Executive α :=
  match x.waiting.find? id with
  | some { operation := .ask _ next, .. } => x.resume id (next t)
  | _ => x

def ringHolder (x : Executive α) (bell : Nat → Bell) : Executive α :=
  match x.eventHolder with
  | some id => x.ring (bell id)
  | none => x

/-! ## Going away -/

/-- Lets everybody who sends from an end see that this has become impossible. -/
def dismiss (x : Executive α) (e : End) : Executive α :=
  (x.setSenders {} e).wakeAll (x.senders e).members

def close (x : Executive α) (e : End) : Executive α :=
  let x := { x with transport := x.transport.close e, receiving := x.receiving.erase e }
  ((x.dismiss .first).dismiss .second).ring (.packets e.other)

def closeTarget (x : Executive α) : Executive α :=
  let askers := x.askers
  let x := (x.plan (·.cancelTimer .target)).close .second
  let x := { x with outbox := [], burstLeft := none, askers := [] }
  askers.foldl (fun x id => x.tell id none) x

def dropHost (x : Executive α) : Executive α := x.close .first

/-- The simulated target, as long as it runs. -/
def simulatedTarget? (x : Executive α) : Option SimulatedTarget :=
  match x.peer with
  | .simulated t => if x.transport.second.isOpen then some t else none
  | .scripted _ | .remote => none

end Executive

end ProbeNet
