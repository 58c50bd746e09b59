import ProbeNet.Command.Request
import ProbeNet.Session.Executive
import ProbeNet.Text.JsonTree

/-!
# Commands of the host

What the host does for each command: it opens a session, says which modules
have not said what they are, does what it is asked to do, and closes the
session.  Arguments that make no sense are found only when the session is
open.  A command that the host does not know ends the run at once.
-/

namespace ProbeNet

open Register

/-- A program that talks to a session and to its user, and may end early. -/
abbrev CommandM := ExceptT Halt Operation

namespace CommandM

def print (text : Console) : CommandM Unit := ExceptT.lift (.print text (.done ()))

/-- Ends with a failure unless there is a value. -/
def need {α : Type} : Except Failure α → CommandM α
  | .ok a => return a
  | .error f => throw (.failure f)

def attempt {α : Type} (x : SessionM α) : CommandM (Except SessionError α) := ExceptT.lift x.run

/-- Calls the session.  An error of the session ends the program. -/
def call {α : Type} (x : SessionM α) : CommandM α := do
  need ((← attempt x).mapError Failure.ofSession)

end CommandM

open CommandM

namespace HostCommand

/-! ## Modules -/

/-- Puts blanks behind a text that has fewer than `width` characters. -/
def pad (width : Nat) (text : String) : String :=
  text ++ JsonTree.blanks (width - text.length)

def moduleLine (m : ModuleDescriptor) : String :=
  let marker := if m.described then "" else "  (no answer)"
  s!"  {m.address.render}  {pad 6 m.identity.moduleType.shortName} {m.identity.render}" ++ marker

def moduleTable (maxPacketLen : Nat) (modules : List ModuleDescriptor) : List String :=
  let rule := String.ofList (List.replicate 39 '═')
  [rule,
   s!"  Debug Modules ({Numeral.decimal modules.length})",
   rule,
   s!"  Max packet length : {Numeral.decimal maxPacketLen} words"] ++ modules.map moduleLine

/-- A module for other programs. -/
def moduleTree (m : ModuleDescriptor) : JsonTree :=
  .object
    [("address", .number m.address.toNat),
     ("identity", .object
       [("vendor", .number m.identity.vendor.code.toNat),
        ("type", .number m.identity.moduleType.code.toNat),
        ("version", .number m.identity.version.toNat)]),
     ("described", .boolean m.described)]

/-- The list of modules for other programs. -/
def moduleReport (maxPacketLen : Nat) (modules : List ModuleDescriptor) : JsonTree :=
  .object [("max_packet_len", .number maxPacketLen), ("modules", .array (modules.map moduleTree))]

def performModules (o : HostOptions) : CommandM Unit := do
  let s ← call SessionM.state
  let modules := s.directory.snapshot
  if o.json then print (.line (moduleReport s.maxPacketLen modules).render)
  else print (.lines (moduleTable s.maxPacketLen modules))

/-! ## Registers -/

def registerName (m : Address) (address : Word) : String :=
  s!"{m.render} [{Numeral.hex 4 address.toNat}]"

/-- Reads a register.  The value has all digits of its width. -/
def performRead (o : HostOptions) (module address : String) : CommandM Unit := do
  let m ← need (readModule module)
  let address ← need (readShort address)
  let value ← call (Session.registerRead m o.width address)
  print (.line s!"{registerName m address} = {Numeral.hex (o.width.bits / 4) value.toNat}")

def performWrite (o : HostOptions) (module address value : String) : CommandM Unit := do
  let m ← need (readModule module)
  let address ← need (readShort address)
  let value ← need (readValue value)
  call (Session.registerWrite m o.width address value)
  print (.line s!"{registerName m address} <- {value.render}")

/-- Resets the system, or the processors: the bit is set and then cleared. -/
def performReset (o : HostOptions) : CommandM Unit := do
  let bit : Value := if o.processors then 2 else 1
  call (Session.registerWrite Session.controlModule .w16 resetAddress bit)
  call (Session.registerWrite Session.controlModule .w16 resetAddress 0)
  print (.line ((if o.processors then "CPU" else "System") ++ " reset pulsed."))

/-! ## Events -/

def eventLine (p : Packet) : String :=
  let words := p.payload.map fun w => String.ofList (Numeral.digits 16 4 w.toNat)
  p.src.render ++ " " ++ " ".intercalate words

/-- Writes so many events as they come in. -/
def printEvents : Nat → CommandM Unit
  | 0 => return ()
  | n + 1 => do
    let event ← call Session.eventReceive
    print (.line (eventLine event))
    printEvents n

/-- After how many events to stop when nothing is said about it: more than
anybody waits for. -/
def unlimited : Nat := 1 <<< 64

def startModules : List Address → CommandM Unit
  | [] => return ()
  | m :: ms => do
    call (Session.setEventDestination m)
    call (Session.setEventActive m true)
    startModules ms

/-- Makes modules stop.  One that does not is only remarked on. -/
def stopModules : List Address → CommandM Unit
  | [] => return ()
  | m :: ms => do
    match ← attempt (Session.setEventActive m false) with
    | .ok () => pure ()
    | .error e => print (.remark s!"warning: could not stop {m.render}: {e.message}")
    stopModules ms

/-- Listens to modules: to all system trace modules when none are named. -/
def performEvents (o : HostOptions) (modules : List String) : CommandM Unit := do
  let ms ←
    if modules.isEmpty then
      pure ((← call SessionM.state).directory.ofType .systemTrace)
    else need (modules.mapM readModule)
  if ms.isEmpty then
    throw (.failure { summary := "no modules to listen to" })
  startModules ms
  print (.remark
    s!"listening for events from {Numeral.decimal ms.length} module(s); ctrl-c to stop")
  printEvents (o.count.getD unlimited)
  stopModules ms

def performSendEvent (module : String) (payload : List String) : CommandM Unit := do
  let m ← need (readModule module)
  let words ← need (payload.mapM readShort)
  let packets ← call (Session.eventSendPayload m words)
  print (.line
    s!"Sent {Numeral.decimal words.length} word(s) to {m.render} in {Numeral.decimal packets} packet(s).")

/-! ## Runs -/

def perform (o : HostOptions) : HostCommand → CommandM Unit
  | .modules => performModules o
  | .read m address => performRead o m address
  | .write m address value => performWrite o m address value
  | .events ms => performEvents o ms
  | .sendEvent m payload => performSendEvent m payload
  | .reset => performReset o
  | .help => print (.lines hostUsage)
  | .unknown words => do
    print (.remark ("Unknown command: " ++ " ".intercalate words))
    print (.remark "")
    print (.lines hostUsage)
    throw (.exit failureCode)

def openSession (o : HostOptions) : CommandM Unit := do
  match ← attempt Session.connect with
  | .error e =>
    throw (.failure ((Failure.ofSession e).within
      s!"failed to connect to {o.target}: is dinetd running?"))
  | .ok report =>
    unless report.isComplete do
      print (.remark
        s!"warning: {Numeral.decimal report.undescribed.length} module(s) did not describe themselves")

/-- Opens a session, does what is asked for, and closes the session. -/
def runSession (o : HostOptions) (c : HostCommand) : CommandM Unit := do
  openSession o
  let outcome ← ExceptT.lift (perform o c).run
  ExceptT.lift Session.disconnect
  ExceptT.mk (.done outcome)

end HostCommand

/-! ## Command lines -/

inductive HostPlan where
  | finished (t : Transcript)
  | session (o : HostOptions) (c : HostCommand)

namespace HostPlan

/-- What a command line leads to, before the target is looked for. -/
def ofArguments (s : Settings) (args : List String) : HostPlan :=
  match ({ target := s.network.target } : HostOptions).read args with
  | .error f => .finished (.ofEnding {} (.error (.failure f)))
  | .ok (o, words) =>
    match HostCommand.ofWords words with
    | .help => .finished (.ofEnding (.lines hostUsage) (.ok ()))
    | c => .session o c

def unreachable (o : HostOptions) (e : TransportError) : Transcript :=
  let f := (Failure.ofTransport e).within s!"failed to reach target at {o.target}"
  .ofEnding {} (.error (.failure f))

/-- A host that performs a command, and the target that it talks to. -/
def executive (s : Settings) (peer : Peer) : Executive (Except Halt Unit) :=
  { session := .initial (.ofSettings s), peer }

/-- A target, or why it cannot be reached. -/
abbrev Reach := Except TransportError Peer

/-- Runs a command line.  Returns the target as the run leaves it, and no
transcript if the command waits for something that never comes. -/
def run (s : Settings) (target : Reach) (args : List String) : Reach × Option Transcript :=
  match ofArguments s args, target with
  | .finished t, _ => (target, some t)
  | .session o _, .error e => (target, some (unreachable o e))
  | .session o c, .ok peer =>
    let (x, outcome) := (executive s peer).run (HostCommand.runSession o c).run
    (.ok x.peer, outcome.map (Transcript.ofEnding x.console))

/-- Runs command lines one after the other against the same target. -/
def runAll (s : Settings) (target : Reach) : List (List String) → List (Option Transcript)
  | [] => []
  | args :: rest =>
    let (target, t) := run s target args
    t :: runAll s target rest

end HostPlan

end ProbeNet
