import ProbeNet.Command.Daemon
import ProbeNet.Command.Host
import ProbeNet.Settings.Location
import Std.Internal.UV.Timer
import Std.Internal.UV.UDP

/-!
# Programs

The command line.  The first argument names the program: `dinet-ctl` is the
host and `dinetd` is the daemon.  Everything that they decide is decided
elsewhere; here are only the clock, the files and the sockets.
-/

namespace ProbeNet

namespace Program

open Std.Net Std.Internal

/-! ## Settings -/

def readEnvironment : IO Settings.Environment := do
  let keys := ["DINET_CONFIG", "XDG_CONFIG_HOME", "HOME"] ++ Settings.overrideKeys
  let entries ← keys.filterMapM fun key => do return (← IO.getEnv key).map (key, ·)
  return fun key => entries.lookup key

def readState (path : String) : IO Settings.FileState := do
  try return .file (← IO.FS.readBinFile path)
  catch
    | .noFileOrDirectory .. => return .missing
    | _ => return .directory

def writeDefaults (path : String) : IO Unit := do
  match ← readState path with
  | .missing =>
    let parent := "/".intercalate (path.splitOn "/").dropLast
    unless parent.isEmpty do IO.FS.createDirAll parent
    IO.FS.writeFile path (Settings.render {})
  | _ => return ()

/-- The settings of the environment and the file, or the defaults if they do not
make sense. -/
def readSettings (env : Settings.Environment) : IO Settings := do
  match Settings.load env (← readState (Settings.filePath env)) with
  | .ok s => return s
  | .error _ => return {}

/-! ## Sockets -/

/-- The address of a socket, four numbers and the number behind the colon. -/
def socketAddress (text : String) : IO SocketAddress := do
  match text.splitOn ":" with
  | [host, number] =>
    match IPv4Addr.ofString host, Numeral.read 10 (1 <<< 16) number with
    | some a, .ok n => return .v4 ⟨a, n.toUInt16⟩
    | _, _ => throw (IO.userError "invalid socket address")
  | _ => throw (IO.userError "invalid socket address")

/-- Waits until something has been done. -/
def finish {α : Type} (p : IO.Promise (Except IO.Error α)) : IO α := do
  match ← IO.wait p.result? with
  | some r => IO.ofExcept r
  | none => throw (IO.userError "interrupted")

def toByteArray (bs : List Byte) : ByteArray := ⟨(bs.map fun b => UInt8.ofNat b.toNat).toArray⟩

def ofByteArray (bs : ByteArray) : List Byte := bs.toList.map fun b => BitVec.ofNat 8 b.toNat

/-- A datagram and its sender. -/
abbrev Received := ByteArray × Option SocketAddress

/-- What a socket is going to receive next. -/
abbrev Reception := IO.Promise (Except IO.Error Received)

def beginReceive (socket : UV.UDP.Socket) : IO Reception :=
  socket.recv (UInt64.ofNat maxDatagramBytes)

/-- What has happened first. -/
inductive Occurrence where
  /-- A datagram has come in, or the socket has failed. -/
  | received (r : Except IO.Error Received)
  | elapsed

/-- Waits for a datagram, but not longer than so many milliseconds. -/
def waitFor (r : Option Reception) (ms : Option Nat) : IO Occurrence := do
  let reception := r.map fun r => r.result?.map fun
    | some r => Occurrence.received r
    | none => .received (.error (IO.userError "interrupted"))
  let time ← ms.mapM fun ms => do
    let timer ← UV.Timer.mk (UInt64.ofNat (min ms (1 <<< 32))) false
    return (← timer.next).result?.map fun _ => Occurrence.elapsed
  match reception, time with
  | some reception, some time => IO.waitAny [reception, time]
  | some reception, none => IO.wait reception
  | none, some time => IO.wait time
  | none, none => return .elapsed

/-! ## The host -/

def emit (c : Console) : IO Unit := do
  unless c.out.isEmpty do
    (← IO.getStdout).putStr c.out
    (← IO.getStdout).flush
  unless c.err.isEmpty do
    (← IO.getStderr).putStr c.err
    (← IO.getStderr).flush

/-- Writes the end of a run and returns its exit code. -/
def conclude (t : Transcript) : IO UInt32 := do
  emit t.console
  return t.code.toUInt32

/-- Sends the packets that wait for the target.  A socket that does not take
them is like a target that has gone away. -/
def flush (socket : UV.UDP.Socket) (x : Executive (Except Halt Unit)) :
    IO (Executive (Except Halt Unit)) := do
  let (x, waiting) := x.takeAll .second
  try
    for p in waiting do
      finish (← socket.send #[toByteArray p.toBytes] none)
    return x
  catch _ => return x.closeTarget

/-- Runs an operation against a target that is reached by a socket. -/
partial def exchange (socket : UV.UDP.Socket) (began id : Nat) (reception : Option Reception)
    (x : Executive (Except Halt Unit)) : IO (Except Halt Unit) := do
  let now ← IO.monoMsNow
  let x ← flush socket (x.settleUntil (max x.clock (now - began)))
  emit x.console
  let x := { x with console := {} }
  match x.results.find? id with
  | some r => return r
  | none =>
    let wait :=
      if x.agenda.isIdle then x.agenda.nextTime?.map (· - x.clock) else some 0
    match ← waitFor reception wait with
    | .elapsed => exchange socket began id reception x
    | .received (.error _) => exchange socket began id none x.closeTarget
    | .received (.ok (bytes, _)) =>
      let reception := some (← beginReceive socket)
      match Packet.ofBytes (ofByteArray bytes) with
      | .ok p => exchange socket began id reception (x.arrive p)
      | .error _ => exchange socket began id reception x

def connect (o : HostOptions) : IO UV.UDP.Socket := do
  let socket ← UV.UDP.Socket.new
  socket.bind (← socketAddress o.bind)
  socket.connect (← socketAddress o.target)
  return socket

def host (args : List String) : IO UInt32 := do
  let s ← readSettings (← readEnvironment)
  match HostPlan.ofArguments s args with
  | .finished t => conclude t
  | .session o c =>
    match ← (connect o).toBaseIO with
    | .error e => conclude (HostPlan.unreachable o (.io (toString e)))
    | .ok socket =>
      let (x, id) := (HostPlan.executive s .remote).start (HostCommand.runSession o c).run
      let r ← exchange socket (← IO.monoMsNow) id (some (← beginReceive socket)) x
      conclude (.ofEnding {} r)

/-! ## The daemon -/

/-- Sends datagrams.  One that cannot be sent is lost. -/
def sendAll (socket : UV.UDP.Socket) (datagrams : List (SocketAddress × List Byte)) : IO Unit := do
  for (host, bytes) in datagrams do
    try finish (← socket.send #[toByteArray bytes] (some host))
    catch _ => pure ()

partial def serve (socket : UV.UDP.Socket) (interval : Option Nat) (due : Nat) (reception : Reception)
    (d : Daemon SocketAddress) : IO UInt32 := do
  let now ← IO.monoMsNow
  match interval with
  | some ms =>
    if due ≤ now then
      let (d, out) := d.trace
      sendAll socket out
      return ← serve socket interval (due + ms) reception d
  | none => pure ()
  match ← waitFor (some reception) (interval.map fun _ => due - now) with
  | .elapsed => serve socket interval due reception d
  | .received r =>
    let reception ← beginReceive socket
    match r with
    | .ok (bytes, some sender) =>
      let (d, out) := d.receive sender (ofByteArray bytes)
      sendAll socket out
      serve socket interval due reception d
    | _ => serve socket interval due reception d

def listen (address : String) : IO UV.UDP.Socket := do
  let socket ← UV.UDP.Socket.new
  socket.bind (← socketAddress address)
  return socket

def daemon (args : List String) : IO UInt32 := do
  match DaemonOptions.read {} args with
  | .error t => conclude t
  | .ok o =>
    let env ← readEnvironment
    try writeDefaults (Settings.filePath env) catch _ => pure ()
    let s ← readSettings env
    match Daemon.initial s with
    | .error f => conclude (.ofEnding {} (.error (.failure f)))
    | .ok d =>
      let address := o.listen.getD s.network.listen
      match ← (listen address).toBaseIO with
      | .error e =>
        let f : Failure := { summary := "failed to bind " ++ address, causes := [toString e] }
        conclude (.ofEnding {} (.error (.failure f)))
      | .ok socket =>
        serve socket o.traceIntervalMs (← IO.monoMsNow) (← beginReceive socket) d

end Program

end ProbeNet

def main (args : List String) : IO UInt32 :=
  match args with
  | "dinetd" :: rest => ProbeNet.Program.daemon rest
  | "dinet-ctl" :: rest => ProbeNet.Program.host rest
  | _ => do
    ProbeNet.Program.emit (.lines (ProbeNet.hostUsage ++ "" :: ProbeNet.daemonUsage))
    return 1
