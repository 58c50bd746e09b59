import ProbeNet.Flow.Endpoint
import ProbeNet.Register.Backend

/-!
# The register engine

The engine of a module serves register transactions, one at a time.  It
reads a request, takes it apart, sends it to the base registers or to the
backend, waits for the result, and writes the answer; in each step it goes
at most one phase further.  A request that is malformed or refused is
answered with the error that fits its operation.  The next request is read
only when the answer to the one before has left completely.

Every phase carries what the phases before it have found out, so there is no
phase in which something is missing.
-/

namespace ProbeNet

open Register

/-- How the engine of a module is set up. -/
structure EngineConfig where
  identity : Identity
  /-- Whether the module can be made inactive. -/
  canStall : Bool := true
  maxWidth : Width := .w128
  /-- The first address that belongs to the backend. -/
  boundary : Word := defaultBoundary
  deriving DecidableEq, Repr

/-- Why a request is answered with an error. -/
inductive Refusal where
  | malformed
  | tooWide (width : Width)
  | baseTooWide (width : Width)
  | fault (fault : Fault)
  deriving DecidableEq, Repr

/-- Which registers serve a transaction. -/
inductive Responder where
  | base
  | backend
  deriving DecidableEq, Repr

/-- Where the engine is with the transaction in hand. -/
inductive EnginePhase where
  /-- It reads the next request. -/
  | idle
  /-- It has read a packet. -/
  | decode (request : Packet)
  /-- It has taken the request apart. -/
  | dispatch (request : Packet) (t : Transaction)
  /-- It waits for the registers. -/
  | await (request : Packet) (t : Transaction) (responder : Responder)
  /-- It knows the result. -/
  | conclude (request : Packet) (t : Transaction) (outcome : Except Refusal Value)
  /-- It sends the rest of the answer. -/
  | respond

/-- What an engine has counted. -/
structure EngineStats where
  requests : Nat := 0
  errors : Nat := 0
  /-- Packets that were no register request. -/
  discarded : Nat := 0
  deriving DecidableEq, Repr

/-- The register engine of a module with backend `β`. -/
structure Engine (β : Type) where
  config : EngineConfig
  registers : BaseRegisters
  backend : β
  phase : EnginePhase := .idle
  reader : PacketReader := {}
  writer : PacketWriter := {}
  stats : EngineStats := {}

namespace Engine

variable {β : Type}

def initial (config : EngineConfig) (backend : β) : Engine β :=
  { config, registers := .initial config.identity config.canStall, backend }

/-- Whether the engine has no request in hand, in whole or in part. -/
def isIdle (e : Engine β) : Bool :=
  match e.phase with
  | .idle => !e.reader.inPacket
  | _ => false

/-- The transaction that stands for a malformed request: its operation and
width decide the answer, its value does not matter. -/
def placeholder (kind : RegisterKind) (payload : List Word) : Transaction :=
  let address := payload.headD 0
  match kind with
  | .writeRequest w => .write address w 0
  | .readRequest w => .read address w
  | _ => .read address .w16

def stepIdle (e : Engine β) (input : Option Flit) : Engine β :=
  let (reader, outcome) := e.reader.tick input
  let e := { e with reader }
  match outcome with
  | .packet p => { e with phase := .decode p }
  | .malformed _ => { e with stats.discarded := e.stats.discarded + 1 }
  | .pending | .timedOut => e

/-- Takes a packet apart.  Only register requests are served. -/
def stepDecode (e : Engine β) (request : Packet) : Engine β :=
  match request.kind with
  | .register kind =>
    if kind.isRequest then
      let e := { e with stats.requests := e.stats.requests + 1 }
      match Transaction.parse kind request.payload with
      | .ok t => { e with phase := .dispatch request t }
      | .error _ =>
        { e with phase := .conclude request (placeholder kind request.payload) (.error .malformed) }
    else { e with phase := .idle, stats.discarded := e.stats.discarded + 1 }
  | _ => { e with phase := .idle, stats.discarded := e.stats.discarded + 1 }

/-- Decides who serves a transaction, and announces it to the backend. -/
def stepDispatch [Backend β] (e : Engine β) (request : Packet) (t : Transaction) : Engine β :=
  if e.config.maxWidth.words < t.width.words then
    { e with phase := .conclude request t (.error (.tooWide t.width)) }
  else if t.address < e.config.boundary then
    if t.width = .w16 then { e with phase := .await request t .base }
    else { e with phase := .conclude request t (.error (.baseTooWide t.width)) }
  else
    { e with phase := .await request t .backend, backend := Backend.start e.backend t }

def stepAwait [Backend β] (e : Engine β) (request : Packet) (t : Transaction) :
    Responder → Engine β
  | .base =>
    let (registers, result) := e.registers.serve t
    { e with registers, phase := .conclude request t (result.mapError .fault) }
  | .backend =>
    match Backend.poll e.backend t with
    | (backend, .pending) => { e with backend }
    | (backend, .ready result) =>
      { e with backend, phase := .conclude request t (result.mapError .fault) }

def stepConclude (e : Engine β) (request : Packet) (t : Transaction) :
    Except Refusal Value → Engine β
  | .ok v =>
    { e with phase := .respond, writer := e.writer.enqueue (t.successResponse request v) }
  | .error _ =>
    { e with
      phase := .respond
      writer := e.writer.enqueue (t.errorResponse request)
      stats.errors := e.stats.errors + 1 }

/-- Sends a flit of the answer to a sink that is ready or not.  Returns the
flit presented. -/
def stepRespond (e : Engine β) (ready : Bool) : Engine β × Option Flit :=
  let writer := e.writer.popIf ready
  ({ e with writer, phase := if writer.isIdle then .idle else .respond }, e.writer.peek)

/-- What happens in one step. -/
structure Step (β : Type) where
  engine : Engine β
  taken : Bool
  /-- The flit presented to the sink; it has moved if the sink was ready. -/
  offered : Option Flit

/-- One step between a source that shows `input` and a sink that is ready or
not.  The step that queues an answer also presents its first flit. -/
def tick [Backend β] (e : Engine β) (input : Option Flit) (ready : Bool) : Step β :=
  match e.phase with
  | .idle => { engine := e.stepIdle input, taken := input.isSome, offered := none }
  | .decode request => { engine := e.stepDecode request, taken := false, offered := none }
  | .dispatch request t => { engine := e.stepDispatch request t, taken := false, offered := none }
  | .await request t responder =>
    { engine := e.stepAwait request t responder, taken := false, offered := none }
  | .conclude request t outcome =>
    let (engine, offered) := (e.stepConclude request t outcome).stepRespond ready
    { engine, taken := false, offered }
  | .respond =>
    let (engine, offered) := e.stepRespond ready
    { engine, taken := false, offered }

end Engine

/-! ## An engine between a queue and a sink -/

/-- An engine with a queue of flits in front of it and a sink behind it. -/
structure EngineBench (β : Type) where
  engine : Engine β
  source : List Flit := []
  sent : List Flit := []

namespace EngineBench

variable {β : Type}

def feed (b : EngineBench β) (fs : List Flit) : EngineBench β := { b with source := b.source ++ fs }

/-- One step against a sink that is ready or not.  Returns the flit that moved. -/
def tick [Backend β] (b : EngineBench β) (ready : Bool) : EngineBench β × Option Flit :=
  let step := b.engine.tick b.source.head? ready
  let moved := if ready then step.offered else none
  ({ engine := step.engine
     source := if step.taken then b.source.tail else b.source
     sent := b.sent ++ moved.toList }, moved)

end EngineBench

end ProbeNet
