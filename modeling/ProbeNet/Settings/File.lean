import ProbeNet.Settings.Basic
import ProbeNet.Toml.Document

/-!
# The settings file

Settings are kept in a TOML file with a table for each group.  What the file
leaves out has its default, what it has too much is ignored, and a value that
does not fit its field makes the whole file invalid.

A group may also be given as an array, which fills its fields in order.  A
date stands for an empty group.
-/

namespace ProbeNet

open Register

namespace Settings

/-! ## Fields -/

/-- A whole number below `bound`. -/
def natField? (bound : Nat) : Toml.Value → Option Nat
  | .integer (.ofNat n) => if n < bound then some n else none
  | _ => none

def sizeField? : Toml.Value → Option Nat := natField? (1 <<< 64)

def wordField? (v : Toml.Value) : Option Word := (natField? (1 <<< 16) v).map (BitVec.ofNat 16)

def addressField? (v : Toml.Value) : Option Address := do
  (Address.ofNat (← natField? (1 <<< 16) v)).toOption

def widthField? (v : Toml.Value) : Option Width := do
  Width.ofBits? (← natField? (1 <<< 32) v)

def textField? : Toml.Value → Option String
  | .string s => some s
  | _ => none

def flagField? : Toml.Value → Option Bool
  | .boolean b => some b
  | _ => none

/-- The fields of a group, for the names that the group has. -/
def group? (names : List String) : Toml.Value → Option (String → Option Toml.Value)
  | .table _ es => some (Toml.Entries.get? es)
  | .array _ vs => some fun name => (names.zip vs).lookup name
  | .datetime => some fun _ => none
  | _ => none

def fieldOr {α : Type} (fields : String → Option Toml.Value) (name : String)
    (read : Toml.Value → Option α) (default : α) : Option α :=
  match fields name with
  | none => some default
  | some v => read v

def field? {α : Type} (fields : String → Option Toml.Value) (name : String)
    (read : Toml.Value → Option α) : Option α :=
  (fields name).bind read

/-! ## Groups -/

def link? (v : Toml.Value) : Option LinkSettings := do
  let fields ← group? ["max_packet_len", "buffer_depth"] v
  let default : LinkSettings := {}
  let maxPacketLen ← fieldOr fields "max_packet_len" sizeField? default.maxPacketLen
  let bufferDepth ← fieldOr fields "buffer_depth" sizeField? default.bufferDepth
  some { maxPacketLen, bufferDepth }

def host? (v : Toml.Value) : Option HostSettings := do
  let fields ← group? ["address", "register_timeout_ms", "event_queue_depth"] v
  let default : HostSettings := {}
  let address ← fieldOr fields "address" addressField? default.address
  let registerTimeoutMs ←
    fieldOr fields "register_timeout_ms" sizeField? default.registerTimeoutMs
  let eventQueueDepth ← fieldOr fields "event_queue_depth" sizeField? default.eventQueueDepth
  some { address, registerTimeoutMs, eventQueueDepth }

/-- A module.  It must be a table and must say what it is. -/
def moduleSpec? : Toml.Value → Option ModuleSpec
  | .table _ es => do
    let vendor ← field? (Toml.Entries.get? es) "vendor" wordField?
    let moduleType ← field? (Toml.Entries.get? es) "type" wordField?
    let version ← field? (Toml.Entries.get? es) "version" wordField?
    let canStall ← fieldOr (Toml.Entries.get? es) "can_stall" flagField? false
    some { identity := { vendor := ⟨vendor⟩, moduleType := ⟨moduleType⟩, version }, canStall }
  | _ => none

def modules? : Toml.Value → Option (List ModuleSpec)
  | .array _ vs => vs.mapM moduleSpec?
  | _ => none

def target? (v : Toml.Value) : Option TargetSettings := do
  let fields ←
    group? ["backend_boundary", "max_reg_width", "system_vendor_id", "system_device_id",
            "step_interval_us", "modules"] v
  let default : TargetSettings := {}
  let boundary ← fieldOr fields "backend_boundary" wordField? default.boundary
  let maxWidth ← fieldOr fields "max_reg_width" widthField? default.maxWidth
  let systemVendor ← fieldOr fields "system_vendor_id" wordField? default.systemVendor
  let systemDevice ← fieldOr fields "system_device_id" wordField? default.systemDevice
  let stepIntervalUs ← fieldOr fields "step_interval_us" sizeField? default.stepIntervalUs
  let modules ← fieldOr fields "modules" modules? default.modules
  some { boundary, maxWidth, systemVendor, systemDevice, stepIntervalUs, modules }

def network? (v : Toml.Value) : Option NetworkSettings := do
  let fields ← group? ["listen", "target"] v
  let default : NetworkSettings := {}
  let listen ← fieldOr fields "listen" textField? default.listen
  let target ← fieldOr fields "target" textField? default.target
  some { listen, target }

def ofEntries? (es : Toml.Entries) : Option Settings := do
  let link ← fieldOr (Toml.Entries.get? es) "link" link? {}
  let host ← fieldOr (Toml.Entries.get? es) "host" host? {}
  let target ← fieldOr (Toml.Entries.get? es) "target" target? {}
  let network ← fieldOr (Toml.Entries.get? es) "network" network? {}
  some { link, host, target, network }

def ofText? (text : String) : Option Settings := (Toml.parse text).bind ofEntries?

/-! ## Writing -/

/-- A text in quotes, for settings that hold nothing which needs an escape. -/
def quoted (s : String) : String := "\"" ++ s ++ "\""

def fieldLine (name value : String) : String := name ++ " = " ++ value ++ "\n"

def renderModule (m : ModuleSpec) : String :=
  let number (w : Word) := Numeral.decimal w.toNat
  "\n[[target.modules]]\n" ++
    fieldLine "vendor" (number m.identity.vendor.code) ++
    fieldLine "type" (number m.identity.moduleType.code) ++
    fieldLine "version" (number m.identity.version) ++
    fieldLine "can_stall" (if m.canStall then "true" else "false")

def render (s : Settings) : String :=
  let number := Numeral.decimal
  "[link]\n" ++
    fieldLine "max_packet_len" (number s.link.maxPacketLen) ++
    fieldLine "buffer_depth" (number s.link.bufferDepth) ++
  "\n[host]\n" ++
    fieldLine "address" (number s.host.address.toNat) ++
    fieldLine "register_timeout_ms" (number s.host.registerTimeoutMs) ++
    fieldLine "event_queue_depth" (number s.host.eventQueueDepth) ++
  "\n[target]\n" ++
    fieldLine "backend_boundary" (number s.target.boundary.toNat) ++
    fieldLine "max_reg_width" s.target.maxWidth.render ++
    fieldLine "system_vendor_id" (number s.target.systemVendor.toNat) ++
    fieldLine "system_device_id" (number s.target.systemDevice.toNat) ++
    fieldLine "step_interval_us" (number s.target.stepIntervalUs) ++
    String.join (s.target.modules.map renderModule) ++
  "\n[network]\n" ++
    fieldLine "listen" (quoted s.network.listen) ++
    fieldLine "target" (quoted s.network.target)

end Settings

end ProbeNet
