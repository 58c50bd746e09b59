import ProbeNet.Register.Backend
import ProbeNet.Session.Operation

/-!
# Calls to a session

What a user of a session can ask for: to connect and disconnect, to read and
write registers, to send and receive events.

Connecting finds out what the subnet is made of.  The control module says
how many modules there are and how long packets may be; every module is then
asked what it is.  A module that does not say so is entered as unknown.
Without the control module there is no connection.
-/

namespace ProbeNet

open Register

namespace Session

def controlModule : Address := 0

/-- What connecting has found out. -/
structure DiscoveryReport where
  modules : Nat
  maxPacketLen : Nat
  undescribed : List Address
  deriving DecidableEq, Repr

def DiscoveryReport.isComplete (r : DiscoveryReport) : Bool := r.undescribed.isEmpty

/-! ## Connecting -/

/-- Reads a 16-bit register without looking the module up. -/
def readWord (m : Address) (address : Word) : SessionM Word := do
  return (← SessionM.access m (.read address .w16)).setWidth 16

def describe (m : Address) : SessionM Identity := do
  let vendor ← readWord m vendorAddress
  let moduleType ← readWord m typeAddress
  let version ← readWord m versionAddress
  return { vendor := ⟨vendor⟩, moduleType := ⟨moduleType⟩, version }

/-- Asks a module what it is and enters it into the directory.  Returns whether
it said so. -/
def enterModule (m : Address) : SessionM Bool := do
  match ← (describe m).attempt with
  | .ok identity =>
    SessionM.modify fun s =>
      { s with directory := s.directory.enter { address := m, identity, described := true } }
    return true
  | .error _ =>
    SessionM.modify fun s => { s with directory := s.directory.enter (.unknown m) }
    return false

/-- Enters modules one after the other.  Returns those that did not say what
they are. -/
def enterModules : List Address → SessionM (List Address)
  | [] => return []
  | m :: ms => do
    let described ← enterModule m
    let rest ← enterModules ms
    return if described then rest else m :: rest

/-- The addresses of so many modules, as far as there are addresses. -/
def moduleAddresses (count : Nat) : List Address :=
  (List.range (min count (Address.max + 1))).map (BitVec.ofNat 10)

def discover : SessionM DiscoveryReport := do
  SessionM.modify forgetModules
  let modules := (← readWord controlModule moduleCountAddress).toNat
  let maxPacketLen := (← readWord controlModule maxPacketLenAddress).toNat
  if maxPayloadWords maxPacketLen = 0 then
    throw (.invalidResponse controlModule (.noPayload maxPacketLen))
  SessionM.modify fun s => { s with maxPacketLen }
  let undescribed ← enterModules (moduleAddresses modules)
  return { modules, maxPacketLen, undescribed }

/-- Gives up the connection, if there is one, and forgets the directory. -/
def disconnect : Operation Unit := .hangUp (.change forgetModules (.done ()))

def connect : SessionM DiscoveryReport := do
  SessionM.takeStep
  if (← SessionM.state).connection.isSome then
    throw .alreadyConnected
  SessionM.modify openConnection
  match ← discover.attempt with
  | .ok report => return report
  | .error e =>
    ExceptT.lift disconnect
    throw e

/-! ## Registers -/

/-- Fails unless the session is connected and knows the module. -/
def checkModule (m : Address) : SessionM Unit := do
  let s ← SessionM.state
  unless s.connected do throw .notConnected
  unless s.directory.contains m do throw (.unknownModule m)

def registerRead (m : Address) (width : Width) (address : Word) : SessionM Value := do
  checkModule m
  SessionM.access m (.read address width)

/-- Writes a register.  The value must not have more bits than the access. -/
def registerWrite (m : Address) (width : Width) (address : Word) (value : Value) :
    SessionM Unit := do
  unless width.fits value do throw (.badArgument (.valueTooWide value width))
  checkModule m
  let _ ← SessionM.access m (.write address width value)

/-- Sets or clears a bit of a 16-bit register.  A bit that is as it should be
is not written. -/
def registerSetBit (m : Address) (address : Word) (bit : Nat) (on : Bool) : SessionM Unit := do
  if 16 ≤ bit then
    throw (.badArgument (.bitOutside bit))
  let current ← registerRead m .w16 address
  let mask : Value := 1#128 <<< bit
  let value := if on then current ||| mask else current &&& ~~~mask
  if value ≠ current then
    registerWrite m .w16 address value

def setEventDestination (m : Address) : SessionM Unit := do
  let host := (← SessionM.state).config.host
  registerWrite m .w16 eventDestAddress (host.setWidth 128)

def setEventActive (m : Address) (active : Bool) : SessionM Unit :=
  registerSetBit m controlAddress 0 active

/-! ## Events -/

def eventSend (p : Packet) : SessionM Unit := do
  let s ← SessionM.state
  unless s.connected do throw .notConnected
  if p.packetClass = .register then
    throw (.badArgument .registerPacket)
  match p.checkLen s.maxPacketLen with
  | .error e => throw (.badArgument (.packet e))
  | .ok () => SessionM.send p

def sendAll : List Packet → SessionM Unit
  | [] => return ()
  | p :: ps => do
    SessionM.send p
    sendAll ps

/-- Sends an event of any length to a module.  Returns the number of packets. -/
def eventSendPayload (m : Address) (payload : List Word) : SessionM Nat := do
  checkModule m
  let s ← SessionM.state
  match fragment m s.config.host payload s.maxEventWords with
  | .error e => throw (.badArgument (.event e))
  | .ok packets =>
    sendAll packets
    return packets.length

/-- Waits for the next event.  Without a connection there is none. -/
def eventReceive : SessionM Packet := do
  unless (← SessionM.state).connected do throw .notConnected
  ExceptT.mk (.receive none fun r => .done (r.getD (.error .notConnected)))

/-- Waits for the next event for so many milliseconds. -/
def eventReceiveWithin (ms : Nat) : SessionM (Option Packet) := do
  unless (← SessionM.state).connected do throw .notConnected
  ExceptT.mk (.receive (some ms) fun
    | some r => .done (r.map some)
    | none => .done (.ok none))

/-- Takes events, at most `limit` of them, until none comes for so many
milliseconds.  Returns them and the error that ended it, if one did. -/
def eventReceiveUpTo (ms : Nat) : Nat → Operation (List Packet × Option SessionError)
  | 0 => return ([], none)
  | limit + 1 => do
    match ← (eventReceiveWithin ms).run with
    | .ok none => return ([], none)
    | .error e => return ([], some e)
    | .ok (some p) =>
      let (ps, e) ← eventReceiveUpTo ms limit
      return (p :: ps, e)

/-- Installs a handler in the place of the one before, or installs none. -/
def setEventHandler (handler : Option HandlerId) : Operation Unit :=
  .step (Operation.modify fun s => { s with handler })

end Session

end ProbeNet
