import ProbeNet.Word

/-!
# Module identities

A module says what it is by three numbers: who defined its registers, which
of the vendor's module types it is, and the version.  Some vendors and the
types of the standard vendor have names; any other number is shown as it is.
-/

namespace ProbeNet

/-- The organisation that defined a module's registers. -/
structure Vendor where
  code : Word
  deriving DecidableEq, Repr

namespace Vendor

/-- The name of a vendor, `none` for a number without one. -/
def name? (v : Vendor) : Option String :=
  match v.code.toNat with
  | 0 => some "unknown"
  | 1 => some "OSD"
  | 2 => some "OpTiMSoC"
  | 3 => some "LowRISC"
  | _ => none

/-- The name of a vendor; all numbers without a name share one. -/
def name (v : Vendor) : String := v.name?.getD "other"

/-- A vendor in texts: the name, or the number. -/
def render (v : Vendor) : String := v.name?.getD s!"vendor {Numeral.hex 4 v.code.toNat}"

def standard : Vendor := ⟨1⟩

end Vendor

/-- The type of a module. -/
structure ModuleType where
  code : Word
  deriving DecidableEq, Repr

namespace ModuleType

def control : ModuleType := ⟨1⟩

def memoryAccess : ModuleType := ⟨3⟩

def systemTrace : ModuleType := ⟨4⟩

/-- The short and the long name of a type, `none` for a number without one. -/
def names? (t : ModuleType) : Option (String × String) :=
  match t.code.toNat with
  | 0 => some ("UNKNOWN", "unknown module")
  | 1 => some ("SCM", "subnet control module")
  | 2 => some ("DEM_UART", "device emulation module (UART)")
  | 3 => some ("MAM", "memory access module")
  | 4 => some ("STM", "system trace module")
  | 5 => some ("CTM", "core trace module")
  | _ => none

/-- The short name of a type; all numbers without a name share one. -/
def shortName (t : ModuleType) : String := (t.names?.map Prod.fst).getD "OTHER"

/-- The long name of a type; all numbers without a name share one. -/
def longName (t : ModuleType) : String := (t.names?.map Prod.snd).getD "vendor-specific module"

/-- A type in texts: the short name, or the number. -/
def render (t : ModuleType) : String :=
  (t.names?.map Prod.fst).getD s!"type {Numeral.hex 4 t.code.toNat}"

end ModuleType

/-- What a module reports about itself. -/
structure Identity where
  vendor : Vendor
  moduleType : ModuleType
  version : Word
  deriving DecidableEq, Repr

namespace Identity

def unknown : Identity := { vendor := ⟨0⟩, moduleType := ⟨0⟩, version := 0 }

def standard (moduleType : ModuleType) (version : Word) : Identity :=
  { vendor := .standard, moduleType, version }

def render (i : Identity) : String :=
  s!"{i.vendor.render}/{i.moduleType.render} v{Numeral.decimal i.version.toNat}"

end Identity

end ProbeNet
