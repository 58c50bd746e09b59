import ProbeNet.Event
import ProbeNet.Flow.Arbiter
import ProbeNet.Flow.Buffer
import ProbeNet.Flow.Demux
import ProbeNet.Flow.Link
import ProbeNet.Node.Engine

/-!
# Debug modules

A module as it is wired inside a subnet:

    input → buffer → demultiplexer ─┬─→ link → engine → link ─┬─→ arbiter → output
                                    └─→ link → inbox          │
                                               outbox ────────┘

Packets from outside wait in a buffer until they are complete.  Register
packets go to the engine, all others to the inbox, where someone may take
them.  The answers of the engine and the events of the module leave through
one arbiter.
-/

namespace ProbeNet

open Register

/-- Why the interconnect cannot be built, or does not do what it is told. -/
inductive FabricError where
  | buffer (e : BufferError)
  | packetLimitTooSmall (max : Nat)
  | unknownModule (address : Address)
  /-- The module sends no events while it is not active. -/
  | moduleInactive (address : Address)
  | backendCount (modules backends : Nat)
  | tooManyModules (modules : Nat)
  | event (e : EventError)
  deriving DecidableEq, Repr

def FabricError.message : FabricError → String
  | .buffer e => e.message
  | .packetLimitTooSmall max =>
    s!"max packet length {Numeral.decimal max} leaves no room for a payload"
  | .unknownModule a => s!"no module at address {a.render}"
  | .moduleInactive a =>
    s!"module {a.render} is not active; set bit 0 of its control register first"
  | .backendCount modules backends =>
    s!"{Numeral.decimal modules} modules configured but {Numeral.decimal backends} backends supplied"
  | .tooManyModules n => s!"subnet of {Numeral.decimal n} modules does not fit the address space"
  | .event e => e.message

/-- How many packets an inbox holds until someone takes them. -/
def inboxDepth : Nat := 64

/-- A module with backend `β`. -/
structure DebugModule (β : Type) where
  address : Address
  /-- The longest packet the module sends or takes. -/
  maxPacketLen : Nat
  /-- Where packets from outside wait. -/
  input : Buffer
  demux : Demux := {}
  toEngine : Link := {}
  toInbox : Link := {}
  engine : Engine β
  fromEngine : Link := {}
  /-- The packet that is on its way into the inbox. -/
  inboxReader : PacketReader := {}
  inbox : List Packet := []
  inboxDropped : Nat := 0
  /-- The events that are on their way out. -/
  outbox : PacketWriter := {}
  arbiter : Arbiter := {}

namespace DebugModule

variable {β : Type}

def initial (address : Address) (config : EngineConfig) (backend : β)
    (bufferDepth maxPacketLen : Nat) : Except FabricError (DebugModule β) :=
  if maxPayloadWords maxPacketLen = 0 then .error (.packetLimitTooSmall maxPacketLen)
  else
    match Buffer.wholePacket bufferDepth maxPacketLen with
    | .error e => .error (.buffer e)
    | .ok input => .ok { address, maxPacketLen, input, engine := .initial config backend }

def identity (m : DebugModule β) : Identity := m.engine.registers.identity

def isActive (m : DebugModule β) : Bool := m.engine.registers.isActive

/-- Whether nothing is under way in the module.  Packets in the inbox have
arrived. -/
def isIdle (m : DebugModule β) : Bool :=
  m.input.isEmpty && m.demux.isIdle && !m.toEngine.isValid && !m.toInbox.isValid &&
    m.engine.isIdle && !m.fromEngine.isValid && m.outbox.isIdle && !m.inboxReader.inPacket

/-- Empties the inbox and returns what was in it. -/
def takeInbox (m : DebugModule β) : DebugModule β × List Packet := ({ m with inbox := [] }, m.inbox)

/-- Queues an event for the module's event destination.  Returns the number of
packets it was split into. -/
def emitEvent (m : DebugModule β) (payload : List Word) :
    DebugModule β × Except FabricError Nat :=
  if m.isActive then
    match fragment m.engine.registers.eventDest m.address payload
        (maxPayloadWords m.maxPacketLen) with
    | .ok packets => ({ m with outbox := m.outbox.enqueueAll packets }, .ok packets.length)
    | .error e => (m, .error (.event e))
  else (m, .error (.moduleInactive m.address))

/-! ## Steps

The parts of a module take their steps from the output backwards, so a flit
goes at most one part further in a step. -/

/-- The step of the arbiter.  Returns the flit presented to the output. -/
def stepArbiter (m : DebugModule β) (ready : Bool) : DebugModule β × Option Flit :=
  let (arbiter, offered) := m.arbiter.tick [m.fromEngine.slot, m.outbox.peek] ready
  let moved := if ready then offered.map Prod.fst else none
  ({ m with
     arbiter
     fromEngine := m.fromEngine.popIf (moved == some 0)
     outbox := m.outbox.popIf (moved == some 1) },
   offered.map Prod.snd)

def stepEngine [Backend β] (m : DebugModule β) : DebugModule β :=
  let step := m.engine.tick m.toEngine.slot m.fromEngine.ready
  { m with
    engine := step.engine
    toEngine := m.toEngine.popIf step.taken
    fromEngine := m.fromEngine.offer step.offered }

/-- Puts a packet into the inbox, or counts that it was full. -/
def deliver (m : DebugModule β) (p : Packet) : DebugModule β :=
  if m.inbox.length < inboxDepth then { m with inbox := m.inbox ++ [p] }
  else { m with inboxDropped := m.inboxDropped + 1 }

def stepInbox (m : DebugModule β) : DebugModule β :=
  let (inboxReader, outcome) := m.inboxReader.tick m.toInbox.slot
  let m := { m with inboxReader, toInbox := m.toInbox.pop }
  match outcome with
  | .packet p => m.deliver p
  | .pending | .timedOut | .malformed _ => m

/-- Which links behind the demultiplexer are free. -/
def wayReady (m : DebugModule β) : Route → Bool
  | .register => m.toEngine.ready
  | .bypass => m.toInbox.ready

def stepDemux (m : DebugModule β) : DebugModule β :=
  let step := m.demux.tick m.input.peek m.wayReady
  let m := { m with demux := step.demux, input := m.input.popIf step.taken }
  match step.offered with
  | none => m
  | some (.register, f) => { m with toEngine := m.toEngine.push f }
  | some (.bypass, f) => { m with toInbox := m.toInbox.push f }

/-- One step against an output that is ready or not.  Returns the flit
presented to the output; it has moved if the output was ready. -/
def tick [Backend β] (m : DebugModule β) (ready : Bool) : DebugModule β × Option Flit :=
  let (m, offered) := m.stepArbiter ready
  (m.stepEngine.stepInbox.stepDemux, offered)

end DebugModule

/-! ## A module between a queue and a sink -/

/-- A module with a queue of flits in front of it. -/
structure ModuleBench (β : Type) where
  module : DebugModule β
  source : List Flit := []

namespace ModuleBench

variable {β : Type}

def feed (b : ModuleBench β) (fs : List Flit) : ModuleBench β := { b with source := b.source ++ fs }

def inject (b : ModuleBench β) : ModuleBench β :=
  match b.source with
  | [] => b
  | f :: rest =>
    if b.module.input.ready then
      { module := { b.module with input := b.module.input.push f }, source := rest }
    else b

/-- One step against an output that is ready or not, after a flit was moved in.
Returns the flit that left. -/
def tick [Backend β] (b : ModuleBench β) (ready : Bool) : ModuleBench β × Option Flit :=
  let b := b.inject
  let (module, offered) := b.module.tick ready
  ({ b with module }, if ready then offered else none)

end ModuleBench

end ProbeNet
