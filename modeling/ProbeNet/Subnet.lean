import ProbeNet.Node.Module
import ProbeNet.Settings.Basic

/-!
# Subnets

A subnet is the control module at address zero, further modules at the
addresses behind it, and the wiring between them and the host.  Packets from
the host are staged until they are complete and then handed to the module of
their destination; a packet that is too long, or that is for nobody, is
dropped and counted without reaching any module.  Everything the modules
send leaves through one arbiter.
-/

namespace ProbeNet

open Register

/-- A module and the link that its output goes into. -/
structure Node where
  module : DebugModule ModuleBackend
  out : Link := {}

/-- What the router does with the packet in hand. -/
inductive RouterPhase where
  /-- It stages a packet. -/
  | collect
  /-- It hands the staged packet to a module. -/
  | forward (module : Nat)
  /-- It drops what is left of a packet that is too long. -/
  | drop
  deriving DecidableEq, Repr

/-- What a subnet has counted. -/
structure SubnetStats where
  steps : Nat := 0
  routed : Nat := 0
  unroutable : Nat := 0
  oversized : Nat := 0
  inboxDropped : Nat := 0
  deriving DecidableEq, Repr

/-- A subnet.  Its counters leave out the packets that inboxes have dropped:
the modules count those. -/
structure Subnet where
  /-- The modules, in the order of their addresses. -/
  nodes : List Node
  maxPacketLen : Nat
  ingress : Buffer
  egress : Buffer
  /-- The packet in hand. -/
  staged : List Flit := []
  phase : RouterPhase := .collect
  arbiter : Arbiter := {}
  counts : SubnetStats := {}

namespace Subnet

/-! ## Building -/

/-- How many registers the backend of a module has, unless it is given. -/
def registerSpan : Nat := 0x100

/-- The register file of a module when none is given: it starts at the
boundary and ends where the addresses end, if not before. -/
def defaultBackend (target : TargetSettings) : MapBackend :=
  .ofRange target.boundary (BitVec.ofNat 16 (min (target.boundary.toNat + registerSpan) 0xffff))

def controlBackend (link : LinkSettings) (target : TargetSettings) (count : Nat) :
    ControlBackend :=
  { systemVendor := target.systemVendor
    systemDevice := target.systemDevice
    moduleCount := BitVec.ofNat 16 count
    maxPacketLen := BitVec.ofNat 16 link.maxPacketLen
    reset := 0 }

def engineConfig (target : TargetSettings) (identity : Identity) (canStall : Bool) :
    EngineConfig :=
  { identity, canStall, maxWidth := target.maxWidth, boundary := target.boundary }

/-- The modules of a subnet before they are built: how the engine of each is
set up, and its backend.  The control module comes first. -/
def blueprints (link : LinkSettings) (target : TargetSettings) (backends : List MapBackend) :
    List (EngineConfig × ModuleBackend) :=
  (engineConfig target (.standard .control 0) true,
      .control (controlBackend link target (target.modules.length + 1))) ::
    List.zipWith
      (fun spec backend => (engineConfig target spec.identity spec.canStall, .map backend))
      target.modules backends

def buildNodes (link : LinkSettings) :
    Nat → List (EngineConfig × ModuleBackend) → Except FabricError (List Node)
  | _, [] => .ok []
  | address, (config, backend) :: rest => do
    let module ← DebugModule.initial (BitVec.ofNat 10 address) config backend
      link.bufferDepth link.maxPacketLen
    let nodes ← buildNodes link (address + 1) rest
    .ok ({ module } :: nodes)

/-- Builds a subnet with a given register file behind each listed module.  One
address is left for the host. -/
def withBackends (link : LinkSettings) (target : TargetSettings) (backends : List MapBackend) :
    Except FabricError Subnet := do
  if backends.length ≠ target.modules.length then
    throw (.backendCount target.modules.length backends.length)
  let count := target.modules.length + 1
  if Address.max < count then
    throw (.tooManyModules count)
  let nodes ← buildNodes link 0 (blueprints link target backends)
  match Buffer.streaming link.bufferDepth with
  | .error e => throw (.buffer e)
  | .ok buffer =>
    return { nodes, maxPacketLen := link.maxPacketLen, ingress := buffer, egress := buffer }

/-- Builds a subnet with an empty register file behind each listed module. -/
def build (link : LinkSettings) (target : TargetSettings) : Except FabricError Subnet :=
  withBackends link target (target.modules.map fun _ => defaultBackend target)

/-! ## Access to the modules -/

def moduleCount (s : Subnet) : Nat := s.nodes.length

def routeOf (s : Subnet) (a : Address) : Option Nat :=
  if a.toNat < s.moduleCount then some a.toNat else none

def module? (s : Subnet) (a : Address) : Option (DebugModule ModuleBackend) :=
  (s.nodes[a.toNat]?).map Node.module

/-- The subnet with the module at a place changed. -/
def modifyModule (s : Subnet) (i : Nat)
    (f : DebugModule ModuleBackend → DebugModule ModuleBackend) : Subnet :=
  { s with nodes := s.nodes.modify i fun n => { n with module := f n.module } }

/-- Makes a module emit an event.  Returns the number of its packets. -/
def emitEvent (s : Subnet) (a : Address) (payload : List Word) :
    Subnet × Except FabricError Nat :=
  match s.module? a with
  | none => (s, .error (.unknownModule a))
  | some m =>
    let (m', result) := m.emitEvent payload
    (s.modifyModule a.toNat fun _ => m', result)

/-- Empties the inbox of a module and returns what was in it. -/
def takeInbox (s : Subnet) (a : Address) : Subnet × Except FabricError (List Packet) :=
  match s.module? a with
  | none => (s, .error (.unknownModule a))
  | some m =>
    let (m', packets) := m.takeInbox
    (s.modifyModule a.toNat fun _ => m', .ok packets)

/-- What the subnet has counted, its modules included. -/
def stats (s : Subnet) : SubnetStats :=
  { s.counts with inboxDropped := s.nodes.foldl (fun dropped n => dropped + n.module.inboxDropped) 0 }

def isIdle (s : Subnet) : Bool :=
  s.ingress.isEmpty && s.egress.isEmpty && s.staged.isEmpty && s.phase == .collect &&
    s.nodes.all (fun n => !n.out.isValid) && s.nodes.all (fun n => n.module.isIdle)

/-! ## The host's side -/

def ingressReady (s : Subnet) : Bool := s.ingress.ready

def pushIngress (s : Subnet) (f : Flit) : Subnet := { s with ingress := s.ingress.push f }

def peekEgress (s : Subnet) : Option Flit := s.egress.peek

def popEgress (s : Subnet) : Subnet := { s with egress := s.egress.pop }

/-! ## Steps -/

def stepEgress (s : Subnet) : Subnet :=
  let ready := s.egress.ready
  let (arbiter, offered) := s.arbiter.tick (s.nodes.map fun n => n.out.slot) ready
  let nodes :=
    match offered with
    | some (i, _) => if ready then s.nodes.modify i fun n => { n with out := n.out.pop } else s.nodes
    | none => s.nodes
  { s with arbiter, nodes, egress := s.egress.offer (offered.map Prod.snd) }

def stepNode (n : Node) : Node :=
  let (module, offered) := n.module.tick n.out.ready
  { module, out := n.out.offer offered }

/-- Decides where the staged packet, now complete, goes. -/
def routeStaged (s : Subnet) (staged : List Flit) : Subnet :=
  let dest := Address.ofWord ((staged.head?.map Flit.word).getD 0)
  match s.routeOf dest with
  | some i => { s with staged, phase := .forward i }
  | none => { s with staged := [], counts.unroutable := s.counts.unroutable + 1 }

def stepCollect (s : Subnet) (f : Flit) : Subnet :=
  let staged := s.staged ++ [f]
  if s.maxPacketLen < staged.length then
    { s with
      staged := []
      counts.oversized := s.counts.oversized + 1
      phase := if f.last then .collect else .drop }
  else if f.last then s.routeStaged staged
  else { s with staged }

/-- Hands a flit of the staged packet to the module at place `i`. -/
def stepForward (s : Subnet) (i : Nat) : Subnet :=
  match s.staged with
  | [] => { s with phase := .collect }
  | f :: rest =>
    match s.nodes[i]? with
    | none => s
    | some n =>
      if n.module.input.ready then
        let s := s.modifyModule i fun m => { m with input := m.input.push f }
        if rest.isEmpty then
          { s with staged := [], phase := .collect, counts.routed := s.counts.routed + 1 }
        else { s with staged := rest }
      else s

def stepRouter (s : Subnet) : Subnet :=
  match s.phase with
  | .collect =>
    match s.ingress.peek with
    | none => s
    | some f => { s with ingress := s.ingress.pop }.stepCollect f
  | .forward i => s.stepForward i
  | .drop =>
    match s.ingress.peek with
    | none => s
    | some f =>
      { s with ingress := s.ingress.pop, phase := if f.last then .collect else .drop }

def step (s : Subnet) : Subnet :=
  let s := { s with counts.steps := s.counts.steps + 1 }.stepEgress
  { s with nodes := s.nodes.map stepNode }.stepRouter

end Subnet

/-! ## A subnet between two queues -/

/-- A subnet with a queue of flits in front of it. -/
structure SubnetBench where
  subnet : Subnet
  source : List Flit := []

namespace SubnetBench

def feed (b : SubnetBench) (fs : List Flit) : SubnetBench := { b with source := b.source ++ fs }

def inject (b : SubnetBench) : SubnetBench :=
  match b.source with
  | [] => b
  | f :: rest =>
    if b.subnet.ingressReady then { subnet := b.subnet.pushIngress f, source := rest } else b

def drain (b : SubnetBench) : Nat → SubnetBench × List Flit
  | 0 => (b, [])
  | limit + 1 =>
    match b.subnet.peekEgress with
    | none => (b, [])
    | some f =>
      let (b, fs) := drain { b with subnet := b.subnet.popEgress } limit
      (b, f :: fs)

/-- One step, with at most one flit moved in before it and at most `limit`
flits taken out behind it; all of them when there is no limit. -/
def tick (b : SubnetBench) (limit : Option Nat) : SubnetBench × List Flit :=
  let b := b.inject
  let b := { b with subnet := b.subnet.step }
  b.drain (limit.getD b.subnet.egress.size)

end SubnetBench

end ProbeNet
