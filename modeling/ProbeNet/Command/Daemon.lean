import ProbeNet.Command.Transcript
import ProbeNet.Packet.Datagram
import ProbeNet.Target.Simulated

/-!
# The daemon

A simulated target that is reached by datagrams.  Every datagram carries one
packet.  What is no packet, or a longer one than the links carry, is dropped;
everything else goes to the target, and the packets of the target go back as
datagrams.

When asked to, the daemon lets the system trace modules that are active emit
numbered events.
-/

namespace ProbeNet

/-! ## Command lines -/

structure DaemonOptions where
  listen : Option String := none
  /-- How many milliseconds pass between two trace events; at least one does. -/
  traceIntervalMs : Option Nat := none
  deriving DecidableEq, Repr

def daemonUsage : List String :=
  ["Usage: dinetd [--listen <addr>] [--trace-interval-ms <ms>]",
   "",
   "Options:",
   "  --listen <addr>           UDP address to serve on (default: from config)",
   "  --trace-interval-ms <ms>  Emit a trace event from every active STM this often"]

namespace DaemonOptions

/-- Reads a command line from left to right.  The first word that ends the run
does so, whatever follows it.  Without such a word there are the options, or
else the transcript of the run that is over. -/
def read (o : DaemonOptions) : List String → Except Transcript DaemonOptions
  | [] => .ok o
  | "--listen" :: rest =>
    match rest with
    | [] => fail { summary := "--listen requires an address" }
    | address :: rest => read { o with listen := some address } rest
  | "--trace-interval-ms" :: rest =>
    match rest with
    | [] => fail { summary := "--trace-interval-ms requires a value" }
    | text :: rest =>
      match Numeral.read 10 (1 <<< 64) text with
      | .ok n => read { o with traceIntervalMs := some (max n 1) } rest
      | .error e =>
        fail { summary := "--trace-interval-ms must be a number", causes := [e.message] }
  | word :: _ =>
    if word ∈ ["--help", "-h"] then .error (.ofEnding (.lines daemonUsage) (.ok ()))
    else
      .error (.ofEnding (Console.remark ("Unknown argument: " ++ word) ++ .lines daemonUsage)
        (.error (.exit failureCode)))
where
  fail (f : Failure) : Except Transcript DaemonOptions :=
    .error (.ofEnding {} (.error (.failure f)))

end DaemonOptions

/-! ## Serving -/

/-- A daemon that serves hosts with addresses of type `α`. -/
structure Daemon (α : Type) where
  target : SimulatedTarget
  /-- The longest packet that is passed on. -/
  maxPacketLen : Nat
  host : Option α := none
  traceNumber : BitVec 32 := 0

/-- The most bytes of a datagram that are looked at. -/
def maxDatagramBytes : Nat := 4096

namespace Daemon

variable {α : Type}

def initial (s : Settings) : Except Failure (Daemon α) :=
  match Subnet.build s.link s.target with
  | .ok subnet => .ok { target := { subnet }, maxPacketLen := s.link.maxPacketLen }
  | .error e => .error { summary := "failed to build subnet", causes := [e.message] }

/-- The packet of a datagram, unless the datagram is dropped. -/
def packet? (d : Daemon α) (datagram : List Byte) : Option Packet :=
  match Packet.ofBytes (datagram.take maxDatagramBytes) with
  | .error _ => none
  | .ok p => if p.lenWords ≤ d.maxPacketLen then some p else none

/-- The datagrams of packets that go to the host, if there is one. -/
def outbound (d : Daemon α) (ps : List Packet) : List (α × List Byte) :=
  match d.host with
  | none => []
  | some host => ps.map fun p => (host, p.toBytes)

/-- Hands packets to the target and lets it run.  Returns the datagrams that
leave. -/
def serve (d : Daemon α) (ps : List Packet) : Daemon α × List (α × List Byte) :=
  let (target, out) := d.target.run ps
  ({ d with target }, d.outbound out)

/-- Serves a datagram.  Its sender is the host from now on, unless the datagram
is dropped. -/
def receive (d : Daemon α) (sender : α) (datagram : List Byte) :
    Daemon α × List (α × List Byte) :=
  match d.packet? datagram with
  | none => (d, [])
  | some p => { d with host := some sender }.serve [p]

/-! ## Trace events -/

def tracers (d : Daemon α) : List Address :=
  (d.target.modules.filter fun m => m.active && m.identity.moduleType = .systemTrace).map
    ModuleState.address

/-- The payload of a trace event: the running number and who emits it. -/
def tracePayload (d : Daemon α) (a : Address) : List Word :=
  [d.traceNumber.extractLsb' 16 16, d.traceNumber.extractLsb' 0 16, a.word]

def traceModule (d : Daemon α) (a : Address) : Daemon α × List (α × List Byte) :=
  let (target, _) := d.target.emitEvent a (d.tracePayload a)
  { d with target }.serve []

/-- Lets modules emit their trace events one after the other. -/
def traceAll : List Address → Daemon α → Daemon α × List (α × List Byte)
  | [], d => (d, [])
  | a :: as, d =>
    let (d, out) := d.traceModule a
    let (d, rest) := traceAll as d
    (d, out ++ rest)

/-- Lets every active system trace module emit an event, and goes on to the
next number. -/
def trace (d : Daemon α) : Daemon α × List (α × List Byte) :=
  let (d, out) := traceAll d.tracers d
  ({ d with traceNumber := d.traceNumber + 1 }, out)

end Daemon

end ProbeNet
