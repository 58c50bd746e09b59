import ProbeNet.Subnet

/-!
# Simulated targets

A subnet that packets from the host are fed into, flit by flit, and whose
output is read back into packets.  It rests while nothing is under way and
runs in bursts of steps otherwise.
-/

namespace ProbeNet

/-- How many steps a burst has at most. -/
def burstSteps : Nat := 64

/-- What a module of a target looks like from outside. -/
structure ModuleState where
  address : Address
  identity : Identity
  active : Bool
  deriving DecidableEq, Repr

/-- Why a target does not do what it is asked for. -/
inductive TargetError where
  | stopped
  | fabric (e : FabricError)
  deriving DecidableEq, Repr

def TargetError.message : TargetError → String
  | .stopped => "simulated target has stopped"
  | .fabric e => e.message

/-- A subnet with a feeder and a reader. -/
structure SimulatedTarget where
  subnet : Subnet
  pending : List Flit := []
  /-- The packet that is leaving the subnet. -/
  reader : PacketReader := {}
  packetsIn : Nat := 0
  packetsOut : Nat := 0
  packetsRefused : Nat := 0
  /-- How many milliseconds it rests after a burst.  Without a rest it lets
  everybody else go first. -/
  restMs : Nat := 0

namespace SimulatedTarget

/-- A target at rest.  Time is counted in milliseconds, so a shorter rest after
a burst counts as a whole one. -/
def initial (subnet : Subnet) (restUs : Nat) : SimulatedTarget :=
  { subnet, restMs := (restUs + 999) / 1000 }

def isQuiet (t : SimulatedTarget) : Bool :=
  t.pending.isEmpty && !t.reader.inPacket && t.subnet.isIdle

/-- Takes a packet from the host, or refuses it because it is too long. -/
def accept (t : SimulatedTarget) (p : Packet) : SimulatedTarget :=
  match p.checkLen t.subnet.maxPacketLen with
  | .error _ => { t with packetsRefused := t.packetsRefused + 1 }
  | .ok () => { t with packetsIn := t.packetsIn + 1, pending := t.pending ++ p.toFlits }

def inject (t : SimulatedTarget) : SimulatedTarget :=
  match t.pending with
  | [] => t
  | f :: rest =>
    if t.subnet.ingressReady then { t with subnet := t.subnet.pushIngress f, pending := rest }
    else t

/-- Reads at most one flit from the subnet.  Returns the packet that it ends. -/
def extract (t : SimulatedTarget) : SimulatedTarget × Option Packet :=
  let (reader, outcome) := t.reader.tick t.subnet.peekEgress
  let t := { t with reader, subnet := t.subnet.popEgress }
  match outcome with
  | .packet p => ({ t with packetsOut := t.packetsOut + 1 }, some p)
  | .pending | .timedOut | .malformed _ => (t, none)

/-- One step of the subnet with the transfers around it. -/
def step (t : SimulatedTarget) : SimulatedTarget × Option Packet :=
  let t := t.inject
  { t with subnet := t.subnet.step }.extract

/-- Steps until nothing is under way, at most `n` of them.  Returns the packets
for the host. -/
def burst : Nat → SimulatedTarget → SimulatedTarget × List Packet
  | 0, t => (t, [])
  | n + 1, t =>
    let (t, p) := t.step
    if t.isQuiet then (t, p.toList)
    else
      let (t, ps) := burst n t
      (t, p.toList ++ ps)

/-- Serves the packets that wait in a queue until nothing is under way.  A
target at rest takes one packet and starts to run; all that wait by the end
of a burst are taken together.  `sent` collects the packets for the host,
the last one first.  The run ends early when the fuel does. -/
def serve : Nat → List Packet → List Packet → SimulatedTarget → SimulatedTarget × List Packet
  | 0, _, sent, t => (t, sent.reverse)
  | fuel + 1, queue, sent, t =>
    if t.isQuiet then
      match queue with
      | [] => (t, sent.reverse)
      | p :: rest => serve fuel rest sent (t.accept p)
    else
      let (t, ps) := t.burst burstSteps
      serve fuel [] (ps.reverse ++ sent) (queue.foldl accept t)

/-- More bursts than any run needs whose backends answer in reasonable time. -/
def serveFuel : Nat := 1 <<< 40

/-- Serves packets until nothing is under way.  Returns the packets for the host. -/
def run (t : SimulatedTarget) (queue : List Packet) : SimulatedTarget × List Packet :=
  serve serveFuel queue [] t

/-- Makes a module emit an event.  Returns the number of its packets. -/
def emitEvent (t : SimulatedTarget) (a : Address) (payload : List Word) :
    SimulatedTarget × Except TargetError Nat :=
  let (subnet, result) := t.subnet.emitEvent a payload
  ({ t with subnet }, result.mapError TargetError.fabric)

def modules (t : SimulatedTarget) : List ModuleState :=
  t.subnet.nodes.map fun n =>
    { address := n.module.address, identity := n.module.identity, active := n.module.isActive }

end SimulatedTarget

end ProbeNet
