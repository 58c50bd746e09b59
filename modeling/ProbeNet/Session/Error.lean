import ProbeNet.Event
import ProbeNet.Register.Transaction
import ProbeNet.Transport

/-!
# Errors of a session

Everything that can become of a call to a session other than its result.
The sentences are in `SessionError.message`.
-/

namespace ProbeNet

open Register

/-- Why an answer is not the answer to a register access. -/
inductive InvalidResponse where
  | foreignClass (c : PacketClass)
  | readLength (words : Nat) (width : Width)
  | writePayload
  | unexpectedKind (kind : RegisterKind)
  /-- The subnet says that packets have no room for a payload. -/
  | noPayload (maxPacketLen : Nat)
  deriving DecidableEq, Repr

def InvalidResponse.message : InvalidResponse → String
  | .foreignClass c => c.render ++ " packet"
  | .readLength n w => s!"{Numeral.decimal n} payload words for a {w.render}-bit read"
  | .writePayload => "write response carries a payload"
  | .unexpectedKind k => "unexpected subclass " ++ k.render
  | .noPayload n => s!"maximum packet length {Numeral.decimal n} leaves no payload"

/-- What is wrong with the arguments of a call. -/
inductive BadArgument where
  | valueTooWide (value : Value) (width : Width)
  | bitOutside (bit : Nat)
  | registerPacket
  | packet (e : PacketError)
  | event (e : EventError)
  deriving DecidableEq, Repr

/-- What is wrong, in words. -/
def BadArgument.message : BadArgument → String
  | .valueTooWide v w => s!"value {v.render} does not fit {w.render} bits"
  | .bitOutside bit => s!"bit {Numeral.decimal bit} is outside a 16-bit register"
  | .registerPacket => "register packets go through register_read/register_write"
  | .packet e => e.message
  | .event e => e.message

/-- Why a call to a session has no result. -/
inductive SessionError where
  | notConnected
  | alreadyConnected
  | timeout (module : Address) (address : Word)
  | deviceError (module : Address) (address : Word)
  | invalidResponse (module : Address) (reason : InvalidResponse)
  | unknownModule (module : Address)
  | transport (e : TransportError)
  | badArgument (reason : BadArgument)
  deriving DecidableEq, Repr

def SessionError.message : SessionError → String
  | .notConnected => "session is not connected"
  | .alreadyConnected => "session is already connected"
  | .timeout m a =>
    s!"module {m.render} did not answer access to register {Numeral.hex 4 a.toNat} in time"
  | .deviceError m a => s!"module {m.render} refused access to register {Numeral.hex 4 a.toNat}"
  | .invalidResponse m reason => s!"invalid response from module {m.render}: {reason.message}"
  | .unknownModule m => s!"no module at address {m.render}"
  | .transport e => e.message
  | .badArgument reason => s!"bad argument: {reason.message}"

/-- What an answer says about the access that it should answer.  A read gives
the value of the payload, a write gives back the value that was written. -/
def checkResponse (module : Address) (t : Transaction) (response : Packet) :
    Except SessionError Value :=
  match response.kind with
  | .register kind =>
    match t.access, kind with
    | .read, .readSuccess w =>
      if w = t.width then
        if response.payload.length = w.words then .ok (Value.ofWords response.payload)
        else .error (.invalidResponse module (.readLength response.payload.length w))
      else .error (.invalidResponse module (.unexpectedKind kind))
    | .write v, .writeSuccess =>
      if response.payload = [] then .ok v
      else .error (.invalidResponse module .writePayload)
    | .read, .readError => .error (.deviceError module t.address)
    | .write _, .writeError => .error (.deviceError module t.address)
    | _, _ => .error (.invalidResponse module (.unexpectedKind kind))
  | other => .error (.invalidResponse module (.foreignClass other.packetClass))

end ProbeNet
