import ProbeNet.Register.Identity
import ProbeNet.Register.Transaction

/-!
# Base registers

Five 16-bit registers that every module has: three say what the module is
and cannot be written, one controls and reports its activity, and one holds
the address its events go to.  Bit 0 of the control register makes the
module active.  A module that cannot stall is active from the start, and
writes to its control register are accepted without effect.
-/

namespace ProbeNet

namespace Register

/-- Why a register does not complete an access. -/
inductive Fault where
  | unimplemented (address : Word)
  | readOnly (address : Word)
  /-- The register is there and the access went wrong. -/
  | failed (address : Word)
  deriving DecidableEq, Repr

def Fault.message : Fault → String
  | .unimplemented a => s!"register {Numeral.hex 4 a.toNat} is not implemented"
  | .readOnly a => s!"register {Numeral.hex 4 a.toNat} is read-only"
  | .failed a => s!"access to register {Numeral.hex 4 a.toNat} failed"

/-! ## Addresses -/

def vendorAddress : Word := 0x0000

def typeAddress : Word := 0x0001

def versionAddress : Word := 0x0002

def controlAddress : Word := 0x0003

def eventDestAddress : Word := 0x0004

/-- The first address behind the base registers, unless configured otherwise. -/
def defaultBoundary : Word := 0x0200

/-! ## The registers -/

/-- The registers that every module has. -/
structure BaseRegisters where
  identity : Identity
  canStall : Bool
  control : Word
  eventDest : Address
  deriving DecidableEq, Repr

namespace BaseRegisters

def initial (identity : Identity) (canStall : Bool) : BaseRegisters :=
  { identity, canStall, control := if canStall then 0 else 1, eventDest := 0 }

def isActive (r : BaseRegisters) : Bool := r.control.getLsbD 0

def read (r : BaseRegisters) (address : Word) : Except Fault Word :=
  if address = vendorAddress then .ok r.identity.vendor.code
  else if address = typeAddress then .ok r.identity.moduleType.code
  else if address = versionAddress then .ok r.identity.version
  else if address = controlAddress then .ok r.control
  else if address = eventDestAddress then .ok r.eventDest.word
  else .error (.unimplemented address)

def write (r : BaseRegisters) (address value : Word) : Except Fault BaseRegisters :=
  if address = vendorAddress ∨ address = typeAddress ∨ address = versionAddress then
    .error (.readOnly address)
  else if address = controlAddress then
    .ok (if r.canStall then { r with control := value } else r)
  else if address = eventDestAddress then
    .ok { r with eventDest := .ofWord value }
  else .error (.unimplemented address)

/-- Serves a transaction: the registers after it and the value of its answer.
A refused transaction leaves the registers as they were. -/
def serve (r : BaseRegisters) (t : Transaction) : BaseRegisters × Except Fault Value :=
  match t.access with
  | .read => (r, (r.read t.address).map (BitVec.setWidth 128))
  | .write v =>
    match r.write t.address (v.setWidth 16) with
    | .ok r' => (r', .ok v)
    | .error e => (r, .error e)

end BaseRegisters

end Register

end ProbeNet
