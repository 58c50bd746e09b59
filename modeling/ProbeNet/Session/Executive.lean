import ProbeNet.Session.Executive.Turns

/-!
# Running an executive

Rounds alternate with looks: in a round everybody has turns who has something
to do, and in a look the operations go on that something has happened to.
Few operations are all looked at, in the order in which they were started.
Many are looked at in the order in which something has happened to them.
-/

namespace ProbeNet

namespace Executive

variable {α : Type}

/-! ## Looks -/

/-- How many operations are looked at one after the other. -/
def crowdSize : Nat := 30

/-- Looks at the operations that something has happened to, until each of the
`left` that have not ended has been found waiting once since the last one
ended. -/
def lookAtCalled : Nat → Nat → Executive α → Executive α
  | 0, _, x => x
  | fuel + 1, found, x =>
    match x.agenda.called with
    | [] => x
    | id :: rest =>
      let x := x.plan fun a => { a with called := rest }
      if !x.waiting.contains id then lookAtCalled fuel found x
      else
        let x := x.advanceWaiting id
        if !x.waiting.contains id then lookAtCalled fuel 0 x
        else if x.waiting.size ≤ found + 1 then x
        else lookAtCalled fuel (found + 1) x

/-- Enough steps for a look: everybody who was called, and everybody again
after each one that ends. -/
def lookFuel (x : Executive α) : Nat :=
  x.agenda.called.length + (x.waiting.size + 1) * (x.waiting.size + 1)

/-- Looks at operations, which share what is left of an allowance. -/
def lookAt (x : Executive α) (ids : List Nat) : Executive α :=
  if x.crowded then lookAtCalled x.lookFuel 0 x else ids.foldl advanceWaiting x

def look (x : Executive α) : Executive α :=
  let x := x.plan Agenda.newTurn
  if x.crowded then x.lookAt []
  else
    let x := x.plan fun a => { a with called := [] }
    x.lookAt x.waiting.keys

/-! ## Rounds -/

/-- The end of a round: those who gave way have turns again, and the operations
have a look if something has happened to one. -/
def endRound (x : Executive α) : Executive α :=
  let x := x.plan Agenda.newRound
  if x.agenda.called.isEmpty then x else x.look

/-- Gives turns and moves the clock, but not beyond `limit`, until `stop` holds
or nothing is left to do. -/
def runUntil (stop : Executive α → Bool) (limit : Option Nat) : Nat → Executive α → Executive α
  | 0, x => x
  | fuel + 1, x =>
    if stop x then x
    else
      match x.agenda.ready, x.agenda.turns with
      | t :: ready, turns + 1 =>
        runUntil stop limit fuel ((x.plan fun a => { a with ready, turns }).turn t)
      | _, _ =>
        if !x.agenda.isIdle then runUntil stop limit fuel x.endRound
        else
          match x.agenda.nextTime? with
          | none => x
          | some time =>
            if limit.all (time ≤ ·) then
              runUntil stop limit fuel (x.plan (·.moveClock time)).endRound
            else x

/-- More turns than any run needs whose operations end. -/
def turnFuel : Nat := 1 <<< 40

/-! ## Operations -/

/-- Lets operations wait for their first look, in the order of a list.  Returns
their numbers. -/
def enrol : List (Operation α) → Executive α → Executive α × List Nat
  | [], x => (x, [])
  | o :: os, x =>
    let id := x.nextId
    let (x, ids) := enrol os ({ x with nextId := id + 1 }.park id o .fresh)
    (x, id :: ids)

/-- Starts operations in the order of a list.  Returns their numbers. -/
def startAll (os : List (Operation α)) (x : Executive α) : Executive α × List Nat :=
  let crowded : Bool := crowdSize < os.length
  let (x, ids) := enrol os { x with crowded }
  let x := if crowded then x.wakeAll (ids.map .operation) else x
  (x.lookAt ids, ids)

def start (x : Executive α) (o : Operation α) : Executive α × Nat :=
  let (x, ids) := startAll [o] x
  (x, ids.headD 0)

/-- Runs operations that are started together until all have ended.  Returns
their results in order; one that waits forever has none. -/
def runAll (x : Executive α) (os : List (Operation α)) : Executive α × List (Option α) :=
  let (x, ids) := startAll os x
  let x := runUntil (fun x => ids.all x.results.contains) none turnFuel x
  (x, ids.map x.results.find?)

/-- Runs one operation until it has ended. -/
def run (x : Executive α) (o : Operation α) : Executive α × Option α :=
  let (x, rs) := x.runAll [o]
  (x, rs.head?.join)

/-- Lets so many milliseconds pass. -/
def settle [Inhabited α] (x : Executive α) (ms : Nat) : Executive α :=
  (x.run (.pause ms (.done default))).1

def settleUntil (x : Executive α) (time : Nat) : Executive α :=
  (runUntil (fun _ => false) (some time) turnFuel x).plan fun a => { a with clock := time }

end Executive

end ProbeNet
