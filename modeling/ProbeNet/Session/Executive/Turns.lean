import ProbeNet.Session.Executive.Operations

/-!
# Turns

What register channels, the receiver and the target do in their turns.  Each
goes on until it has to wait for something or its allowance is used up.
Every step of a loop here takes a step of the allowance, so the allowance
bounds the loops.
-/

namespace ProbeNet

open Register

namespace Executive

variable {α : Type}

/-! ## Register channels -/

def setChannel (x : Executive α) (m : Address) (c : RegisterChannel) : Executive α :=
  { x with session := x.session.setChannel m c }

/-- Lets a register channel take the next call, which makes room for another
one. -/
def takeCall (x : Executive α) (m : Address) (c : RegisterChannel) : Executive α :=
  let (line, next) := ((x.callLines.find? m).getD {}).vacate
  let x := { x.setChannel m c.take with callLines := x.callLines.insert m line }
  x.spend.wakeAll next.toList

def endCall (x : Executive α) (m : Address) (c : RegisterChannel) (call : RegisterCall)
    (r : Except SessionError Value) : Executive α :=
  let x := (x.setChannel m c).plan (·.cancelTimer (.channel m))
  x.spend.conclude call.id r

/-- Lets a register channel wait for an answer until its deadline. -/
def awaitAnswer (x : Executive α) (m : Address) (c : RegisterChannel) : Executive α :=
  let x := x.plan (·.listen (.answers m))
  match c.deadline? with
  | some deadline =>
    if x.agenda.hasTimer (.channel m) then x else x.plan (·.addTimer deadline (.channel m))
  | none => x

/-- The turn of a register channel. -/
def turnChannel (m : Address) : Nat → Executive α → Executive α
  | 0, x => x
  | fuel + 1, x =>
    match x.session.channel? m with
    | none => x
    | some c =>
      if x.isSpent then x.giveWay (.channel m)
      else
        match c.phase with
        | .idle =>
          if c.calls.isEmpty then x.plan (·.listen (.calls m))
          else turnChannel m fuel (x.takeCall m c)
        | .sending call =>
          let request := call.transaction.toRequest m x.session.config.host
          match x.put .first request (.channel m) with
          | (x, .done ()) =>
            turnChannel m fuel
              (x.setChannel m (c.sent (x.clock + x.session.config.registerTimeoutMs)))
          | (x, .failed e) =>
            turnChannel m fuel
              ((x.setChannel m (c.refuse e).1).conclude call.id (.error (.transport e)))
          | (x, .blocked) => x
        | .waiting _ _ =>
          match c.conclude m x.clock with
          | (c, some (call, r)) => turnChannel m fuel (x.endCall m c call r)
          | (c, none) => x.awaitAnswer m c

/-! ## The receiver -/

/-- Does with a packet what the session says.  Finding out about the handler
takes a step. -/
def dispatch (x : Executive α) (p : Packet) : Executive α :=
  let (session, outcome) := x.session.dispatch p
  let x := { x with session, undispatched := none }
  match outcome with
  | .nothing => x
  | .answered m => x.ring (.answers m)
  | .queued => x.spend.ringHolder .events
  | .handled call => { x.spend with handled := call :: x.handled }
  | .lost _ => x.spend

/-- Lets an operation go on that has given up its connection. -/
def letGo (x : Executive α) (id : Nat) : Executive α :=
  match x.waiting.find? id with
  | some { operation := .hangUp next, .. } => x.resume id next
  | _ => x

/-- Ends what was left of connections that have been given up. -/
def bidFarewell (x : Executive α) : Executive α :=
  let farewells := x.farewells
  let x := { x with
    farewells := []
    receiving := if farewells.isEmpty then x.receiving else x.receiving.erase .first }
  farewells.foldl (fun x f =>
    let x := f.callers.foldl (fun x id => x.conclude id (.error .notConnected)) x
    f.leaver.toList.foldl letGo x) x

def receivePackets : Nat → Executive α → Executive α
  | 0, x => x
  | fuel + 1, x =>
    match x.undispatched with
    | some p =>
      if x.isSpent then x.giveWay .receiver else receivePackets fuel (x.dispatch p)
    | none =>
      match x.take .first .receiver with
      | (x, .done p) =>
        if p.packetClass ≠ .register && x.isSpent then
          { x with undispatched := some p }.giveWay .receiver
        else receivePackets fuel (x.dispatch p)
      | (x, .failed _) => { x with session := x.session.loseTransport }.ringHolder .loss
      | (x, .blocked) => x

def turnReceiver (x : Executive α) : Executive α :=
  let x := x.bidFarewell
  if (x.session.connection.map Connection.receiving).getD false then
    receivePackets (x.agenda.allowance + 2) x
  else { x with undispatched := none }

/-! ## Sending to the host -/

/-- Begins to send a packet later. -/
def startDelivery (x : Executive α) (delayMs : Nat) (packet : Packet) : Executive α :=
  let n := x.nextDelivery
  { x with
    deliveries := x.deliveries.insert n { packet, delayMs }
    nextDelivery := n + 1 }.wake (.delivery n)

def turnDelivery (x : Executive α) (n : Nat) : Executive α :=
  match x.deliveries.find? n with
  | none => x
  | some d =>
    if d.begun then
      match x.put .second d.packet (.delivery n) with
      | (x, .blocked) => x
      | (x, _) => { x with deliveries := x.deliveries.erase n }
    else
      { x with deliveries := x.deliveries.insert n { d with begun := true } }.plan
        (·.addTimer (x.clock + d.delayMs) (.delivery n))

/-- Sends packets of the target, each at once or later.  A target that cannot
send goes away.  Returns whether it can go on. -/
def post : List (Nat × Packet) → Executive α → Executive α × Bool
  | [], x => ({ x with outbox := [] }, true)
  | (0, p) :: rest, x =>
    match x.put .second p .target with
    | (x, .done ()) => post rest x
    | (x, .failed _) => (x.closeTarget, false)
    | (x, .blocked) => ({ x with outbox := (0, p) :: rest }, false)
  | (ms, p) :: rest, x => post rest (x.startDelivery ms p)

/-! ## Scripted targets -/

def followScript : Nat → ScriptedTarget → Executive α → Executive α
  | 0, t, x => { x with peer := .scripted t }
  | fuel + 1, t, x =>
    match x.take .second .target with
    | (x, .done p) =>
      let x := { x with received := p :: x.received }
      match t.next with
      | (t, .silent) => followScript fuel t x
      | (t, .hangUp) => { x with peer := .scripted t }.closeTarget
      | (t, .reply replies) =>
        match post (replies.map fun r => (r.delayMs, r.toPacket p)) x with
        | (x, true) => followScript fuel t x
        | (x, false) => { x with peer := .scripted t }
    | (x, _) => { x with peer := .scripted t }

def turnScripted (x : Executive α) (t : ScriptedTarget) : Executive α :=
  match post x.outbox x with
  | (x, true) => followScript (x.agenda.allowance + 1) t x
  | (x, false) => x

/-! ## Simulated targets -/

def setTarget (x : Executive α) (t : SimulatedTarget) : Executive α :=
  { x with peer := .simulated t }

/-- Lets the target do what it is asked for.  An end at which it was about to
receive is not held any longer. -/
def answerAskers (x : Executive α) : Executive α :=
  let askers := x.askers
  let x := { x with askers := [] }
  askers.foldl (fun x id =>
    match x.peer, (x.waiting.find? id).map Waiting.operation with
    | .simulated t, some (.ask f _) =>
      ({ x with receiving := x.receiving.erase .second }.setTarget (f t)).tell id (some t)
    | _, _ => x) x

/-- So many steps of a burst, until nothing is under way.  Returns whether the
burst is over. -/
def burst : Nat → SimulatedTarget → Executive α → Executive α × Bool
  | 0, t, x => (x.setTarget t, true)
  | n + 1, t, x =>
    let (t, packet) := t.step
    match post (packet.toList.map fun p => (0, p)) x with
    | (x, false) => ({ x.setTarget t with burstLeft := some n }, false)
    | (x, true) => if t.isQuiet then (x.setTarget t, true) else burst n t x

/-- The end of a burst: takes all packets that wait, does what is asked for,
and rests. -/
def endBurst (x : Executive α) : Executive α :=
  let x := { x with burstLeft := none }
  match x.takeAll .second with
  | (x, ps) =>
    match x.peer with
    | .simulated t =>
      let x := x.setTarget (ps.foldl SimulatedTarget.accept t)
      if !x.transport.first.isOpen then x.closeTarget
      else
        let x := x.answerAskers
        if t.restMs = 0 then x.giveWay .target
        else x.plan (·.addTimer (x.clock + t.restMs) .target)
    | .scripted _ | .remote => x

/-- Goes on with a burst, as far as packets can be sent. -/
def continueBurst (n : Nat) (t : SimulatedTarget) (x : Executive α) : Executive α :=
  match burst n t x with
  | (x, true) => x.endBurst
  | (x, false) => x

/-- While nothing is under way, does what is asked for and takes packets; then
runs a burst. -/
def attend : Nat → Executive α → Executive α
  | 0, x => x
  | fuel + 1, x =>
    match x.peer with
    | .simulated t =>
      if !t.isQuiet then continueBurst burstSteps t x
      else if !x.askers.isEmpty then attend fuel x.answerAskers
      else
        match x.take .second .target with
        | (x, .done p) => attend fuel (x.setTarget (t.accept p))
        | (x, .failed _) => x.closeTarget
        | (x, .blocked) => x.plan (·.listen .questions)
    | .scripted _ | .remote => x

/-- The turn of a simulated target.  A target that rests goes on resting. -/
def turnSimulated (x : Executive α) (t : SimulatedTarget) : Executive α :=
  if x.agenda.hasTimer .target then x
  else
    match post x.outbox x, x.burstLeft with
    | (x, false), _ => x
    | (x, true), some n => if t.isQuiet then x.endBurst else continueBurst n t x
    | (x, true), none => attend (x.agenda.allowance + 2) x

/-! ## Everybody -/

/-- The turn of the target, as long as it is there. -/
def turnTarget (x : Executive α) : Executive α :=
  if x.transport.second.isOpen then
    match x.peer with
    | .simulated t => x.turnSimulated t
    | .scripted t => x.turnScripted t
    | .remote => x
  else x

def turn (x : Executive α) (t : Task) : Executive α :=
  let x := x.plan Agenda.newTurn
  match t with
  | .operation id => x.advanceWaiting id
  | .receiver => x.turnReceiver
  | .channel m => turnChannel m (x.agenda.allowance + 1) x
  | .target => x.turnTarget
  | .delivery n => x.turnDelivery n

end Executive

end ProbeNet
