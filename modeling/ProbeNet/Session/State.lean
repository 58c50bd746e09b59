import ProbeNet.Session.Channel
import ProbeNet.Session.Directory
import ProbeNet.Settings.Basic

/-!
# The state of a session

What the host keeps while it talks to a subnet.  Packets that arrive are
dispatched by their class: answers go to the register channel of the module
they come from, events are put together, and everything that is complete
goes to the handler, or else into the event queue.
-/

namespace ProbeNet

/-- How a session is set up. -/
structure SessionConfig where
  host : Address
  /-- How many milliseconds a register access may take. -/
  registerTimeoutMs : Nat
  /-- How many events wait to be received; at least one does. -/
  eventQueueDepth : Nat
  /-- The longest packet, until the subnet has said it. -/
  maxPacketLen : Nat
  /-- How many words an event may have. -/
  eventWordLimit : Option Nat
  deriving DecidableEq, Repr

/-- How many words an event may have, unless set otherwise. -/
def defaultEventWordLimit : Nat := 0x10000

def SessionConfig.ofSettings (s : Settings) : SessionConfig :=
  { host := s.host.address
    registerTimeoutMs := s.host.registerTimeoutMs
    eventQueueDepth := max s.host.eventQueueDepth 1
    maxPacketLen := s.link.maxPacketLen
    eventWordLimit := some defaultEventWordLimit }

/-- What exists only while a session has a connection. -/
structure Connection where
  channels : Table Address RegisterChannel := .empty
  reassembler : Reassembler
  /-- Whether packets are still received. -/
  receiving : Bool := true
  deriving DecidableEq, Repr

/-- A handler of events, by its number.  A session keeps it and calls it, and knows no more. -/
abbrev HandlerId := Nat

/-- A call of a handler with a packet. -/
structure HandlerCall where
  handler : HandlerId
  packet : Packet
  deriving DecidableEq, Repr

/-- The state of a session. -/
structure Session where
  config : SessionConfig
  directory : Directory := .empty
  /-- Whether the other side can be reached, as far as the session knows. -/
  connected : Bool := false
  connection : Option Connection := none
  /-- The longest packet that the subnet carries, as far as the session knows. -/
  maxPacketLen : Nat
  /-- The handler that takes the events, if one is installed. -/
  handler : Option HandlerId := none
  /-- The events that wait to be received, the oldest first. -/
  events : List Packet := []
  deriving DecidableEq, Repr

namespace Session

def initial (config : SessionConfig) : Session := { config, maxPacketLen := config.maxPacketLen }

def maxEventWords (s : Session) : Nat := maxPayloadWords s.maxPacketLen

/-! ## Connections -/

def openConnection (s : Session) : Session :=
  { s with
    connection := some { reassembler := .initial s.config.eventWordLimit }
    connected := true }

def dropConnection (s : Session) : Session := { s with connection := none, connected := false }

def forgetModules (s : Session) : Session := { s with directory := .empty }

/-- The state when the transport has failed. -/
def loseTransport (s : Session) : Session :=
  { s with
    connected := false
    connection := s.connection.map fun c => { c with receiving := false } }

/-- The register channel of a module, if the connection has used it. -/
def channel? (s : Session) (m : Address) : Option RegisterChannel :=
  s.connection.bind fun c => c.channels.find? m

def setChannel (s : Session) (m : Address) (c : RegisterChannel) : Session :=
  { s with connection := s.connection.map fun n => { n with channels := n.channels.insert m c } }

/-- Hands a call to the register channel of a module, which is opened if it has
not been used before. -/
def submit (s : Session) (m : Address) (call : RegisterCall) : Session :=
  s.setChannel m (((s.channel? m).getD {}).submit call)

/-! ## Arriving packets -/

/-- What dispatching a packet leads to outside the state. -/
inductive Dispatched where
  | nothing
  /-- The channel of this module has a further answer. -/
  | answered (module : Address)
  | queued
  | handled (call : HandlerCall)
  /-- This packet is lost, because the event queue is full. -/
  | lost (p : Packet)
  deriving DecidableEq, Repr

/-- Gives a complete packet to the handler that is installed, or puts it into the
event queue if none is.  A full queue loses it. -/
def deliver (s : Session) (p : Packet) : Session × Dispatched :=
  match s.handler with
  | some handler => (s, .handled { handler, packet := p })
  | none =>
    if s.events.length < max s.config.eventQueueDepth 1 then
      ({ s with events := s.events ++ [p] }, .queued)
    else (s, .lost p)

/-- Delivering a packet changes nothing but the event queue. -/
theorem deliver_fst (s : Session) (p : Packet) : ∃ events, (s.deliver p).1 = { s with events } := by
  unfold deliver
  split
  · exact ⟨s.events, rfl⟩
  · split
    · exact ⟨s.events ++ [p], rfl⟩
    · exact ⟨s.events, rfl⟩

/-- The event that has waited longest, and the state without it. -/
def takeEvent (s : Session) : Option (Packet × Session) :=
  match s.events with
  | [] => none
  | p :: events => some (p, { s with events })

/-- Gives an answer to the channel of the module that it comes from.  An answer
that nobody has asked for is dropped. -/
def routeResponse (s : Session) (p : Packet) : Session × Dispatched :=
  match s.channel? p.src with
  | some c => (s.setChannel p.src (c.route p), .answered p.src)
  | none => (s, .nothing)

def joinEvent (s : Session) (p : Packet) : Session × Dispatched :=
  match s.connection with
  | none => (s, .nothing)
  | some c =>
    let (reassembler, result) := c.reassembler.push p
    let s := { s with connection := some { c with reassembler } }
    match result with
    | .ok (some e) => s.deliver e.toPacket
    | .ok none => (s, .nothing)
    | .error _ => (s, .nothing)

def dispatch (s : Session) (p : Packet) : Session × Dispatched :=
  match p.packetClass with
  | .register => s.routeResponse p
  | .event => s.joinEvent p
  | .plain | .reserved => s.deliver p

end Session

end ProbeNet
