import ProbeNet.Session.Executive.Basic

/-!
# Running operations

`advance` lets an operation go on until it has ended or has to wait.  Each
thing that an operation can wait for has a function that tries to get it: it
returns what the operation gets, or the stage in which it goes on waiting.
-/

namespace ProbeNet

open Register

namespace Executive

variable {α : Type}

/-- Changes the session.  A fresh connection brings a receiver with it. -/
def changeSession (x : Executive α) (f : Session → Session) : Executive α :=
  let session := f x.session
  let opened := x.session.connection.isNone && session.connection.isSome
  let x := { x with session }
  if opened then x.wake .receiver else x

/-! ## Steps and moments -/

/-- Takes a step.  Returns whether one was left. -/
def takeStep (x : Executive α) (id : Nat) : Executive α × Bool :=
  if x.isSpent then (x.giveWay (.operation id), false) else (x.spend, true)

/-- Whether an operation that waits for so many milliseconds has done so. -/
def isOver (x : Executive α) (id ms : Nat) (stage : Stage) : Bool :=
  match stage with
  | .fresh => ms = 0
  | .lined | .underway => !x.agenda.hasTimer (.operation id)

/-- Lets the time run for which an operation waits. -/
def startTime (x : Executive α) (id ms : Nat) (stage : Stage) : Executive α :=
  match stage with
  | .fresh => x.plan (·.addTimer (x.clock + ms) (.operation id))
  | .lined | .underway => x

/-- Waits until so many milliseconds are over. -/
def pause (x : Executive α) (id ms : Nat) (stage : Stage) : Executive α × Except Stage Unit :=
  if x.isSpent then (x.giveWay (.operation id), .error stage)
  else if x.isOver id ms stage then (x.spend, .ok ())
  else (x.startTime id ms stage, .error .underway)

def awaitOutcome {β : Type} (x : Executive α) (id : Nat) : Executive α × Except Stage β :=
  if x.isSpent then (x.giveWay (.operation id), .error .underway)
  else (x.plan (·.listen (.outcome id)), .error .underway)

/-! ## Register accesses -/

/-- The register channel of a module, opened if it has not been used before. -/
def openChannel (x : Executive α) (m : Address) : Executive α :=
  match x.session.channel? m with
  | some _ => x
  | none =>
    { x with
      session := x.session.setChannel m {}
      callLines := x.callLines.insert m {} }.wake (.channel m)

/-- Hands a call to the register channel of a module when it has room. -/
def submit (x : Executive α) (m : Address) (call : RegisterCall) :
    Executive α × Except Stage (Except SessionError Value) :=
  if x.isSpent then (x.giveWay (.operation call.id), .error .lined)
  else
    match x.session.channel? m with
    | none => (x.spend, .ok (.error .notConnected))
    | some c =>
      let line := (x.callLines.find? m).getD {}
      match line.enter c.room (.operation call.id) with
      | (line, true) =>
        let session := x.session.submit m call
        let x := { x with session, callLines := x.callLines.insert m line }.spend
        (x.ring (.calls m)).awaitOutcome call.id
      | (line, false) => ({ x with callLines := x.callLines.insert m line }, .error .lined)

def access (x : Executive α) (m : Address) (call : RegisterCall) (stage : Stage) :
    Executive α × Except Stage (Except SessionError Value) :=
  match stage with
  | .fresh =>
    match x.takeStep call.id with
    | (x, false) => (x, .error .fresh)
    | (x, true) =>
      match x.session.connection with
      | none => (x, .ok (.error .notConnected))
      | some _ => (x.openChannel m).submit m call
  | .lined => x.submit m call
  | .underway => x.awaitOutcome call.id

/-! ## Events -/

/-- Gets hold of the event queue, which takes a step.  Returns whether the
operation has it. -/
def holdEvents (x : Executive α) (id : Nat) : Executive α × Bool :=
  if x.eventHolder = some id then (x, true)
  else
    let room := if x.eventHolder.isNone then 1 else 0
    match x.eventLine.enter room (.operation id) with
    | (eventLine, true) => ({ x with eventLine, eventHolder := some id }.spend, true)
    | (eventLine, false) => ({ x with eventLine }, false)

def listenForEvents (x : Executive α) (id : Nat) : Executive α :=
  x.plan fun a => (a.listen (.events id)).listen (.loss id)

/-- Waits for the event queue no longer, or leaves it to the next one. -/
def leaveEvents (x : Executive α) (id : Nat) : Executive α :=
  let x := x.plan fun a => (a.cancelTimer (.operation id)).ignore [.events id, .loss id]
  if x.eventHolder = some id then
    let (eventLine, next) := x.eventLine.vacate
    { x with eventLine, eventHolder := none }.wakeAll next.toList
  else
    let (eventLine, next) := x.eventLine.withdraw (.operation id)
    { x with eventLine }.wakeAll next.toList

/-- Waits on for an event, unless the time for it is over. -/
def awaitEvent (x : Executive α) (id : Nat) (wait : Option Nat) (before after : Stage) :
    Executive α × Except Stage (Option (Except SessionError Packet)) :=
  match wait with
  | none => (x, .error after)
  | some ms =>
    if x.isOver id ms before then (x.spend.leaveEvents id, .ok none)
    else (x.startTime id ms before, .error after)

/-- Waits for an event.  Of several operations that do so, one has the event
queue for itself, and the others wait until it leaves.  Somebody who gets hold
of the queue with the last step gives way before having a look at it, unless
the connection is lost or the time is over. -/
def receive (x : Executive α) (id : Nat) (wait : Option Nat) (stage : Stage) :
    Executive α × Except Stage (Option (Except SessionError Packet)) :=
  if x.isSpent then (x.giveWay (.operation id), .error stage)
  else
    match x.holdEvents id with
    | (x, false) => x.awaitEvent id wait stage .lined
    | (x, true) =>
      match if x.isSpent then none else x.session.takeEvent with
      | some (p, session) => ({ x with session }.spend.leaveEvents id, .ok (some (.ok p)))
      | none =>
        let x := if x.isSpent then x.giveWay (.operation id) else x.listenForEvents id
        if x.session.connected then x.awaitEvent id wait stage .underway
        else (x.leaveEvents id, .ok (some (.error .notConnected)))

/-! ## Questions to the target -/

/-- Has a question to the simulated target. -/
def ask (x : Executive α) (id : Nat) (stage : Stage) :
    Executive α × Except Stage (Option SimulatedTarget) :=
  match stage with
  | .fresh =>
    match x.takeStep id with
    | (x, false) => (x, .error .fresh)
    | (x, true) =>
      match x.simulatedTarget? with
      | none => (x, .ok none)
      | some _ => ({ x with askers := x.askers ++ [id] }.ring .questions).awaitOutcome id
  | .lined | .underway => x.awaitOutcome id

/-! ## Giving up the connection -/

/-- The operations that wait for room in the queue of a register channel. -/
def linedCallers (x : Executive α) : List Nat :=
  (x.callLines.values.flatMap Line.members).filterMap fun
    | .operation id => some id
    | _ => none

def callers (x : Executive α) (c : Connection) : List Nat :=
  (c.channels.values.flatMap RegisterChannel.outstanding).map RegisterCall.id ++ x.linedCallers

/-- Takes an operation out of the line in which it waits; it waits for the
outcome from now on. -/
def withdraw (x : Executive α) (id : Nat) : Executive α :=
  match x.waiting.find? id with
  | none => x
  | some w => (x.park id w.operation .underway).plan (·.listen (.outcome id))

def stopChannels (x : Executive α) (c : Connection) : Executive α :=
  let x := x.linedCallers.foldl withdraw x
  let x := { x with callLines := .empty }
  c.channels.keys.foldl (fun x m =>
    let (line, next) := x.lineToTarget.withdraw (.channel m)
    ({ x with lineToTarget := line }.wakeAll next.toList).plan fun a =>
      (a.cancelTimer (.channel m)).ignore [.calls m, .answers m]) x

/-- Takes the last step of giving up a connection that does not receive any
more. -/
def takeLastStep (x : Executive α) (id : Nat) : Executive α × Except Stage Unit :=
  match x.takeStep id with
  | (x, true) => (x, .ok ())
  | (x, false) => (x, .error .lined)

/-- Gives up the connection.  Whoever waits for something of it learns about it
in the last turn of the receiver. -/
def hangUp (x : Executive α) (id : Nat) (stage : Stage) : Executive α × Except Stage Unit :=
  match stage with
  | .underway => x.awaitOutcome id
  | .lined => x.takeLastStep id
  | .fresh =>
    match x.takeStep id with
    | (x, false) => (x, .error .fresh)
    | (x, true) =>
      let connection := x.session.connection
      let x := { x with session := x.session.dropConnection }.ringHolder .loss
      match connection with
      | none => (x, .ok ())
      | some c =>
        let leaver := if c.receiving then some id else none
        let farewells := x.farewells ++ [{ callers := x.callers c, leaver }]
        let x := { x.stopChannels c with farewells }.wake .receiver
        if c.receiving then x.awaitOutcome id else x.takeLastStep id

/-! ## Going on -/

def finish (x : Executive α) (id : Nat) (a : α) : Executive α :=
  { x with waiting := x.waiting.erase id, results := x.results.insert id a }

/-- Lets an operation go on until it has ended or has to wait. -/
def advance (id : Nat) : Operation α → Stage → Executive α → Executive α
  | .done a, _, x => x.finish id a
  | .look next, _, x => advance id (next x.session) .fresh x
  | .change f next, _, x => advance id next .fresh (x.changeSession f)
  | .print text next, _, x => advance id next .fresh { x with console := x.console ++ text }
  | .step next, _, x =>
    match x.takeStep id with
    | (x, true) => advance id next .fresh x
    | (x, false) => x.park id (.step next) .fresh
  | .hangUp next, stage, x =>
    match x.hangUp id stage with
    | (x, .ok ()) => advance id next .fresh x
    | (x, .error stage) => x.park id (.hangUp next) stage
  | .access m t next, stage, x =>
    match x.access m { id, transaction := t } stage with
    | (x, .ok r) => advance id (next r) .fresh x
    | (x, .error stage) => x.park id (.access m t next) stage
  | .send e p next, _, x =>
    match x.put e p (.operation id) with
    | (x, .done ()) => advance id (next (.ok ())) .fresh x
    | (x, .failed error) => advance id (next (.error error)) .fresh x
    | (x, .blocked) => x.park id (.send e p next) .lined
  | .receive wait next, stage, x =>
    match x.receive id wait stage with
    | (x, .ok r) => advance id (next r) .fresh x
    | (x, .error stage) => x.park id (.receive wait next) stage
  | .ask f next, stage, x =>
    match x.ask id stage with
    | (x, .ok t) => advance id (next t) .fresh x
    | (x, .error stage) => x.park id (.ask f next) stage
  | .pause ms next, stage, x =>
    match x.pause id ms stage with
    | (x, .ok ()) => advance id next .fresh x
    | (x, .error stage) => x.park id (.pause ms next) stage

def advanceWaiting (x : Executive α) (id : Nat) : Executive α :=
  match x.waiting.find? id with
  | none => x
  | some w => advance id w.operation w.stage x

end Executive

end ProbeNet
