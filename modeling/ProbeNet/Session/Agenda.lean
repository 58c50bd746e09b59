import ProbeNet.Packet.Basic
import ProbeNet.Transport

/-!
# Agendas

Who has something to do, and when.  Many act in turn: register channels, the
receiver, the target, packets on their way.  Whoever hears of something that
concerns it gets a turn behind those who have one already, and in its turn
goes on until it has to wait.  A turn has an allowance of steps; when the
allowance is used up, the turn ends all the same, and the next one comes
after everybody else has been served.

Those who wait listen for bells.  A bell is heard by the one who listens for
it, and only once; a bell that nobody listens for is not heard later either.

The operations of the user have no turns of their own.  They have a look at
what has happened whenever nobody has a turn left, and at the latest after a
round of turns.  The clock moves only when nobody has anything to do, and
then to the next moment that somebody waits for.
-/

namespace ProbeNet

/-- Somebody who may have something to do. -/
inductive Task where
  | operation (id : Nat)
  | receiver
  | channel (m : Address)
  | target
  /-- A packet of the target that is sent later. -/
  | delivery (n : Nat)
  deriving DecidableEq, Repr

/-- Something that somebody waits to hear of. -/
inductive Bell where
  | packets (e : End)
  | calls (m : Address)
  | answers (m : Address)
  | questions
  | outcome (operation : Nat)
  /-- Events, for the operation that has the event queue. -/
  | events (operation : Nat)
  /-- The loss of the connection, for the operation that has the event queue. -/
  | loss (operation : Nat)
  deriving DecidableEq, Repr

/-- Who waits to hear of it. -/
def Bell.listener : Bell → Task
  | packets .first => .receiver
  | packets .second => .target
  | calls m => .channel m
  | answers m => .channel m
  | questions => .target
  | outcome id => .operation id
  | events id => .operation id
  | loss id => .operation id

/-- A moment that somebody waits for. -/
structure Timer where
  time : Nat
  task : Task
  deriving DecidableEq, Repr

/-- How many steps a turn has. -/
def stepsPerTurn : Nat := 128

/-- How many turns there are at most before the operations have a look. -/
def turnsPerRound : Nat := 61

/-- Who has something to do, and when. -/
structure Agenda where
  /-- Milliseconds since the start. -/
  clock : Nat := 0
  /-- The operations that something has happened to, the first one first. -/
  called : List Nat := []
  /-- Those who have a turn, in the order of their turns. -/
  ready : List Task := []
  /-- Those whose allowance did not suffice, or who let all others go first;
  the last one first. -/
  aside : List Task := []
  /-- The bells that are listened for.  A bell is heard once. -/
  listening : List Bell := []
  /-- The moments that are waited for, in the order in which the waiting began. -/
  timers : List Timer := []
  /-- The turns that are left of the round. -/
  turns : Nat := turnsPerRound
  /-- The steps that are left of the turn. -/
  allowance : Nat := stepsPerTurn
  deriving DecidableEq, Repr

namespace Agenda

/-- Gives somebody a turn, unless one is due already. -/
def wake (a : Agenda) : Task → Agenda
  | .operation id => if id ∈ a.called then a else { a with called := a.called ++ [id] }
  | t => if t ∈ a.ready then a else { a with ready := a.ready ++ [t] }

def wakeAll (a : Agenda) (ts : List Task) : Agenda := ts.foldl wake a

/-- Lets somebody wait until everybody else has been served. -/
def giveWay (a : Agenda) (t : Task) : Agenda :=
  if a.aside.head? = some t then a else { a with aside := t :: a.aside }

/-! ## Bells -/

def listen (a : Agenda) (b : Bell) : Agenda :=
  if b ∈ a.listening then a else { a with listening := b :: a.listening }

/-- Rings a bell.  It gives a turn to the one who listens for it, if anybody
does. -/
def ring (a : Agenda) (b : Bell) : Agenda :=
  if b ∈ a.listening then { a with listening := a.listening.erase b }.wake b.listener else a

/-- A bell that nobody listens for changes nothing. -/
theorem ring_of_not_mem {a : Agenda} {b : Bell} (h : b ∉ a.listening) : a.ring b = a := by
  simp [ring, h]

def ignore (a : Agenda) (bs : List Bell) : Agenda :=
  { a with listening := a.listening.filter fun b => b ∉ bs }

/-! ## Moments -/

def addTimer (a : Agenda) (time : Nat) (task : Task) : Agenda :=
  { a with timers := a.timers ++ [{ time, task }] }

def hasTimer (a : Agenda) (task : Task) : Bool := a.timers.any fun t => t.task = task

def cancelTimer (a : Agenda) (task : Task) : Agenda :=
  { a with timers := a.timers.filter fun t => t.task ≠ task }

def nextTime? (a : Agenda) : Option Nat := (a.timers.map Timer.time).min?

/-- Moves the clock to a moment, which gives a turn to everybody who waits for
it.  Those whose time comes first are first. -/
def moveClock (a : Agenda) (time : Nat) : Agenda :=
  let due := a.timers.filter fun t => t.time ≤ time
  let later := a.timers.filter fun t => ¬ t.time ≤ time
  let order := due.mergeSort fun s t => s.time ≤ t.time
  { a with clock := time, timers := later }.wakeAll (order.map Timer.task)

/-! ## Rounds -/

def isIdle (a : Agenda) : Bool := a.called.isEmpty && a.ready.isEmpty && a.aside.isEmpty

/-- Begins a new round, in which those who gave way have turns again. -/
def newRound (a : Agenda) : Agenda :=
  { a with aside := [], turns := turnsPerRound }.wakeAll a.aside

/-- Begins a turn of somebody, with a fresh allowance. -/
def newTurn (a : Agenda) : Agenda := { a with allowance := stepsPerTurn }

end Agenda

end ProbeNet
