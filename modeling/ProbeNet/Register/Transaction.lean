import ProbeNet.Packet.Basic

/-!
# Register transactions

A register transaction is one request packet and exactly one answer.  The
payload of a request starts with the register's address; a write carries the
words of its value behind it.  A granted read is answered with the words of
the value alone, every other answer has no payload.

`Transaction.parse` accepts exactly what `Transaction.requestPayload` writes
for the request kind it is given.
-/

namespace ProbeNet

namespace Register

/-- What a transaction asks for. -/
inductive Access where
  | read
  | write (value : Value)
  deriving DecidableEq, Repr

/-- A request for one register, whoever sends it. -/
structure Transaction where
  address : Word
  width : Width
  access : Access
  deriving DecidableEq, Repr

/-- Why a packet is not a register request. -/
inductive FormatError where
  | missingAddress
  /-- The payload is not as long as its kind of request needs. -/
  | payloadLength (expected actual : Nat)
  | notARequest (kind : RegisterKind)
  deriving DecidableEq, Repr

def FormatError.message : FormatError → String
  | .missingAddress => "register packet has no address word"
  | .payloadLength expected actual =>
    s!"register payload has {Numeral.decimal actual} words, expected {Numeral.decimal expected}"
  | .notARequest kind => s!"{kind.render} is not a register request"

namespace Transaction

def read (address : Word) (width : Width) : Transaction := { address, width, access := .read }

/-- The transaction that writes a register.  Bits of the value above the
width are dropped. -/
def write (address : Word) (width : Width) (value : Value) : Transaction :=
  { address, width, access := .write (value &&& width.mask) }

def isWrite (t : Transaction) : Bool :=
  match t.access with
  | .read => false
  | .write _ => true

def requestKind (t : Transaction) : RegisterKind :=
  match t.access with
  | .read => .readRequest t.width
  | .write _ => .writeRequest t.width

def requestPayload (t : Transaction) : List Word :=
  match t.access with
  | .read => [t.address]
  | .write v => t.address :: v.toWords t.width

def toRequest (t : Transaction) (dest src : Address) : Packet :=
  { dest, src, kind := .register t.requestKind, payload := t.requestPayload }

/-- The transaction that a register packet asks for.  A payload without an
address is reported before anything else. -/
def parse (kind : RegisterKind) : List Word → Except FormatError Transaction
  | [] => .error .missingAddress
  | address :: rest =>
    match kind with
    | .readRequest w =>
      if rest = [] then .ok (read address w)
      else .error (.payloadLength 1 (1 + rest.length))
    | .writeRequest w =>
      if rest.length = w.words then .ok (write address w (Value.ofWords rest))
      else .error (.payloadLength (1 + w.words) (1 + rest.length))
    | other => .error (.notARequest other)

/-- The answer that grants `request`.  Only a read carries the value. -/
def successResponse (t : Transaction) (request : Packet) (value : Value) : Packet :=
  match t.access with
  | .read => request.reply (.register (.readSuccess t.width)) (value.toWords t.width)
  | .write _ => request.reply (.register .writeSuccess) []

def errorResponse (t : Transaction) (request : Packet) : Packet :=
  match t.access with
  | .read => request.reply (.register .readError) []
  | .write _ => request.reply (.register .writeError) []

/-- A transaction on one line: operation, width, address, value. -/
def render (t : Transaction) : String :=
  let address := Numeral.hex 4 t.address.toNat
  match t.access with
  | .read => s!"read{t.width.render} {address}"
  | .write v => s!"write{t.width.render} {address} = {v.render}"

end Transaction

end Register

end ProbeNet
