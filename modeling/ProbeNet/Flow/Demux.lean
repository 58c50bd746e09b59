import ProbeNet.Packet.Flit

/-!
# The class demultiplexer

Register packets go one way, all others the other way.  The class stands in
the third header word, so the demultiplexer holds the three header flits
before it chooses a route, and keeps the route until the last flit of the
packet is through.  A packet that ends before its third word has no class;
it is dropped and counted.
-/

namespace ProbeNet

/-- The two ways out of a demultiplexer. -/
inductive Route where
  | register
  | bypass
  deriving DecidableEq, Repr

def Route.ofClass : PacketClass → Route
  | .register => .register
  | _ => .bypass

/-- What the demultiplexer does with the packet in hand. -/
inductive DemuxPhase where
  /-- It holds these flits of the header and waits for the others. -/
  | header (held : List Flit)
  /-- It sends the packet one way.  The pending flits were taken and not yet
  sent; `tailSeen` says that the last flit of the packet was taken. -/
  | forward (route : Route) (pending : List Flit) (tailSeen : Bool)
  deriving DecidableEq, Repr

/-- A demultiplexer and what it has counted. -/
structure Demux where
  phase : DemuxPhase := .header []
  registerPackets : Nat := 0
  bypassPackets : Nat := 0
  /-- Packets that ended before their third word. -/
  runts : Nat := 0
  deriving DecidableEq, Repr

namespace Demux

/-- The route of the packet in hand, once it is chosen. -/
def activeRoute (d : Demux) : Option Route :=
  match d.phase with
  | .header _ => none
  | .forward route _ _ => some route

def isIdle (d : Demux) : Bool := d.phase = .header []

/-- The flits that were taken and not yet sent. -/
def held (d : Demux) : List Flit :=
  match d.phase with
  | .header fs => fs
  | .forward _ fs _ => fs

def count (d : Demux) : Route → Demux
  | .register => { d with registerPackets := d.registerPackets + 1 }
  | .bypass => { d with bypassPackets := d.bypassPackets + 1 }

/-- What happens in one step. -/
structure Step where
  demux : Demux
  taken : Bool
  /-- The flit presented, and to which sink. -/
  offered : Option (Route × Flit)
  sent : Bool

def Step.moved (s : Step) : Option (Route × Flit) := if s.sent then s.offered else none

/-- Presents the oldest pending flit to its sink and ends the packet when its
last flit is taken. -/
def present (d : Demux) (route : Route) (pending : List Flit) (tailSeen : Bool)
    (taken : Bool) (ready : Route → Bool) : Step :=
  match pending with
  | [] => { demux := { d with phase := .forward route [] tailSeen }, taken, offered := none,
            sent := false }
  | f :: rest =>
    if ready route then
      let demux :=
        if f.last then { d.count route with phase := .header [] }
        else { d with phase := .forward route rest tailSeen }
      { demux, taken, offered := some (route, f), sent := true }
    else
      { demux := { d with phase := .forward route pending tailSeen }, taken,
        offered := some (route, f), sent := false }

/-- One step between a source that shows `input` and two sinks that are ready
or not.  The step that completes a header also presents its first flit. -/
def tick (d : Demux) (input : Option Flit) (ready : Route → Bool) : Step :=
  match d.phase with
  | .header held =>
    match input with
    | none => { demux := d, taken := false, offered := none, sent := false }
    | some f =>
      match held ++ [f] with
      | [dest, src, flags] =>
        let route := Route.ofClass (PacketKind.classOfFlags flags.word)
        d.present route [dest, src, flags] f.last true ready
      | held' =>
        let demux :=
          if f.last then { d with phase := .header [], runts := d.runts + 1 }
          else { d with phase := .header held' }
        { demux, taken := true, offered := none, sent := false }
  | .forward route pending tailSeen =>
    match pending, tailSeen, input with
    | [], false, some f => d.present route [f] f.last true ready
    | _, _, _ => d.present route pending tailSeen false ready

end Demux

/-! ## A demultiplexer between a queue and two sinks -/

/-- A demultiplexer with a queue of flits in front of it and two sinks behind it. -/
structure DemuxBench where
  demux : Demux := {}
  source : List Flit := []
  register : List Flit := []
  bypass : List Flit := []
  deriving DecidableEq, Repr

namespace DemuxBench

def feed (b : DemuxBench) (fs : List Flit) : DemuxBench := { b with source := b.source ++ fs }

def receive (b : DemuxBench) : Option (Route × Flit) → DemuxBench
  | none => b
  | some (.register, f) => { b with register := b.register ++ [f] }
  | some (.bypass, f) => { b with bypass := b.bypass ++ [f] }

/-- One step with sinks that are ready or not.  Returns the route on which a
flit moved. -/
def tick (b : DemuxBench) (registerReady bypassReady : Bool) : DemuxBench × Option Route :=
  let ready : Route → Bool
    | .register => registerReady
    | .bypass => bypassReady
  let step := b.demux.tick b.source.head? ready
  let source := if step.taken then b.source.tail else b.source
  ({ b with demux := step.demux, source }.receive step.moved, step.moved.map Prod.fst)

end DemuxBench

end ProbeNet
