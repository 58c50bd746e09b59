import ProbeNet.Register.Identity
import ProbeNet.Table

/-!
# Module directories

What the host knows about the modules of a subnet: who is at which address,
and whether the module said so itself.
-/

namespace ProbeNet

/-- A module as the host knows it. -/
structure ModuleDescriptor where
  address : Address
  identity : Identity
  described : Bool
  deriving DecidableEq, Repr

def ModuleDescriptor.unknown (address : Address) : ModuleDescriptor :=
  { address, identity := .unknown, described := false }

/-- The modules by their addresses. -/
abbrev Directory := Table Address ModuleDescriptor

namespace Directory

/-- Enters a module, in place of the one that had its address. -/
def enter (d : Directory) (m : ModuleDescriptor) : Directory := d.insert m.address m

/-- All modules in the order of their addresses. -/
def snapshot (d : Directory) : List ModuleDescriptor :=
  d.values.mergeSort fun a b => a.address ≤ b.address

/-- The addresses of the modules of a type, in ascending order. -/
def ofType (d : Directory) (t : ModuleType) : List Address :=
  (d.snapshot.filter fun m => m.identity.moduleType = t).map ModuleDescriptor.address

end Directory

end ProbeNet
