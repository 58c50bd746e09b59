import ProbeNet.Register.Base
import ProbeNet.Table

/-!
# Register backends

The registers of a module beyond the base registers are served by its
backend.  An access is announced once with `start` and then polled, once per
step, until it is ready; a backend may take any number of steps.

Two backends are given here.  `MapBackend` is a plain register file over a
range of addresses, which can be made slow and can be made to fail at chosen
addresses.  `ControlBackend` holds the registers that describe the subnet and
its two reset lines.
-/

namespace ProbeNet

namespace Register

/-- What a backend says when it is asked how far an access is. -/
inductive Progress where
  | pending
  | ready (result : Except Fault Value)

/-- The registers that a module has beyond the base registers. -/
class Backend (β : Type) where
  /-- A transaction is about to be polled. -/
  start : β → Transaction → β
  /-- Asks for the result of the announced transaction. -/
  poll : β → Transaction → β × Progress

namespace Backend

variable {β : Type} [Backend β]

/-- Polls at most `limit` times until the access is ready.  Returns how many
polls that took. -/
def pollUpTo (t : Transaction) : Nat → β → β × Nat × Progress
  | 0, b => (b, 0, .pending)
  | limit + 1, b =>
    match poll b t with
    | (b, .ready result) => (b, 1, .ready result)
    | (b, .pending) =>
      let (b, polls, progress) := pollUpTo t limit b
      (b, polls + 1, progress)

/-- A whole access: the announcement, and polls until it is ready. -/
def access (limit : Nat) (b : β) (t : Transaction) : β × Nat × Progress :=
  pollUpTo t limit (start b t)

end Backend

/-! ## Register files -/

/-- A register file over the addresses from `first` on and below `limit`.
Registers that were never written hold zero. -/
structure MapBackend where
  first : Word
  limit : Word
  values : Table Word Value
  /-- How many polls an access takes before the one that completes it. -/
  latency : Nat
  /-- How many of them are left for the access under way. -/
  remaining : Nat
  /-- The addresses whose accesses fail. -/
  faulty : List Word
  deriving DecidableEq, Repr

namespace MapBackend

/-- A register file that holds zeros and answers at once. -/
def ofRange (first limit : Word) : MapBackend :=
  { first, limit, values := .empty, latency := 0, remaining := 0, faulty := [] }

/-- The same file, slower. -/
def withLatency (b : MapBackend) (steps : Nat) : MapBackend := { b with latency := steps }

/-- The same file, failing at one more address. -/
def failAt (b : MapBackend) (address : Word) : MapBackend :=
  { b with faulty := address :: b.faulty }

def value (b : MapBackend) (address : Word) : Value := (b.values.find? address).getD 0

def contains (b : MapBackend) (address : Word) : Bool := b.first ≤ address && address < b.limit

/-- Completes an access.  A read shows the part of the value that its width
covers; a write of any width replaces the whole value. -/
def complete (b : MapBackend) (t : Transaction) : MapBackend × Except Fault Value :=
  if ¬ b.contains t.address then (b, .error (.unimplemented t.address))
  else if t.address ∈ b.faulty then (b, .error (.failed t.address))
  else
    match t.access with
    | .read => (b, .ok (b.value t.address &&& t.width.mask))
    | .write v => ({ b with values := b.values.insert t.address v }, .ok v)

instance : Backend MapBackend where
  start b _ := { b with remaining := b.latency }
  poll b t :=
    if b.remaining = 0 then
      let (b', result) := b.complete t
      (b', .ready result)
    else ({ b with remaining := b.remaining - 1 }, .pending)

end MapBackend

/-! ## The subnet's control registers -/

def systemVendorAddress : Word := 0x0200

def systemDeviceAddress : Word := 0x0201

def moduleCountAddress : Word := 0x0202

def maxPacketLenAddress : Word := 0x0203

def resetAddress : Word := 0x0204

/-- The registers that describe a subnet, and its reset lines. -/
structure ControlBackend where
  systemVendor : Word
  systemDevice : Word
  moduleCount : Word
  maxPacketLen : Word
  /-- The reset lines: bit 0 for the system, bit 1 for the processors. -/
  reset : BitVec 2
  deriving DecidableEq, Repr

namespace ControlBackend

def systemInReset (b : ControlBackend) : Bool := b.reset.getLsbD 0

def processorsInReset (b : ControlBackend) : Bool := b.reset.getLsbD 1

def read (b : ControlBackend) (address : Word) : Except Fault Word :=
  if address = systemVendorAddress then .ok b.systemVendor
  else if address = systemDeviceAddress then .ok b.systemDevice
  else if address = moduleCountAddress then .ok b.moduleCount
  else if address = maxPacketLenAddress then .ok b.maxPacketLen
  else if address = resetAddress then .ok (b.reset.setWidth 16)
  else .error (.unimplemented address)

/-- Completes an access.  Only the reset lines can be written; the answer to
that write repeats the value as it was given. -/
def complete (b : ControlBackend) (t : Transaction) : ControlBackend × Except Fault Value :=
  match t.access with
  | .read => (b, (b.read t.address).map (BitVec.setWidth 128))
  | .write v =>
    if t.address = resetAddress then ({ b with reset := v.setWidth 2 }, .ok v)
    else
      match b.read t.address with
      | .ok _ => (b, .error (.readOnly t.address))
      | .error e => (b, .error e)

instance : Backend ControlBackend where
  start b _ := b
  poll b t :=
    let (b', result) := b.complete t
    (b', .ready result)

end ControlBackend

/-! ## Either of the two -/

/-- The backend of a module in a subnet. -/
inductive ModuleBackend where
  | control (backend : ControlBackend)
  | map (backend : MapBackend)
  deriving DecidableEq, Repr

instance : Backend ModuleBackend where
  start
    | .control b, t => .control (Backend.start b t)
    | .map b, t => .map (Backend.start b t)
  poll
    | .control b, t =>
      let (b', progress) := Backend.poll b t
      (.control b', progress)
    | .map b, t =>
      let (b', progress) := Backend.poll b t
      (.map b', progress)

end Register

end ProbeNet
