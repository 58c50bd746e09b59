import ProbeNet.Proofs.Register.Reads
import ProbeNet.Proofs.Subnet.Service

/-!
# What a subnet says of itself

A host finds out what a subnet is by reading words: the number of modules and the
longest packet from the control module, and vendor, type and version from each module.
`Subnet.Describes` says what these reads should give.

The boundary between base registers and backend is configured, and each of these registers
is served on one side of it only.  Where the boundary leaves it on this side, the read is
answered with what `Describes` says; where it does not, somebody else answers.
`discovery_reads_answered` says which answer each read gets.
-/

namespace ProbeNet

open Register

/-! ## What should be said -/

/-- The identity of the module at a place.  That of the control module is not configured. -/
def TargetSettings.identity? (target : TargetSettings) (i : Nat) : Option Identity :=
  (Identity.standard .control 0 :: target.modules.map ModuleSpec.identity)[i]?

namespace Subnet

/-- A host that reads the register `a` of the module at place `i` should learn `v`. -/
inductive Describes (link : LinkSettings) (target : TargetSettings) : Nat → Word → Word → Prop where
  | moduleCount {v : Word} (h : v.toNat = target.modules.length + 1) :
    Describes link target 0 moduleCountAddress v
  | maxPacketLen {v : Word} (h : v.toNat = link.maxPacketLen) :
    Describes link target 0 maxPacketLenAddress v
  | vendor {i : Nat} {identity : Identity} (h : target.identity? i = some identity) :
    Describes link target i vendorAddress identity.vendor.code
  | moduleType {i : Nat} {identity : Identity} (h : target.identity? i = some identity) :
    Describes link target i typeAddress identity.moduleType.code
  | version {i : Nat} {identity : Identity} (h : target.identity? i = some identity) :
    Describes link target i versionAddress identity.version

/-- The configured boundary has a register on the same side as the standard one. -/
def LeavesInPlace (target : TargetSettings) (a : Word) : Prop :=
  target.boundary ≤ a ↔ defaultBoundary ≤ a

instance (target : TargetSettings) (a : Word) : Decidable (LeavesInPlace target a) :=
  inferInstanceAs (Decidable (_ ↔ _))

/-- What a described register is taken for when the boundary has moved it.  The control module
has nothing in its place; in the others it is a register of the file, which holds the last
value that was written to it. -/
def displaced (u : RegisterUnit) (before : List Packet) (i : Nat) (a : Word) : Option Word :=
  if i = 0 then none
  else some (((RegisterUnit.lastWrite? a (u.writes before)).getD 0).setWidth 16)

/-! ## The units of a subnet -/

variable {link : LinkSettings} {target : TargetSettings} {config : EngineConfig}
  {backend : ModuleBackend} {i : Nat} {a v : Word} {ps : List Packet}

/-- The modules of a subnet with empty register files. -/
theorem blueprint_cases
    (h : (blueprints link target (target.modules.map fun _ => defaultBackend target))[i]? =
      some (config, backend)) :
    config.boundary = target.boundary ∧ target.identity? i = some config.identity ∧
      ((i = 0 ∧ backend = .control (controlBackend link target (target.modules.length + 1))) ∨
        i ≠ 0 ∧ backend = .map (defaultBackend target)) := by
  cases i with
  | zero =>
    obtain ⟨rfl, rfl⟩ := Prod.mk.inj (Option.some.inj h)
    exact ⟨rfl, rfl, .inl ⟨rfl, rfl⟩⟩
  | succ i =>
    have hspec : (target.modules.map fun spec =>
        (engineConfig target spec.identity spec.canStall,
          ModuleBackend.map (defaultBackend target)))[i]? = some (config, backend) := by
      rw [← h, blueprints, List.getElem?_cons_succ, List.zipWith_map_right, List.zipWith_self]
    rw [List.getElem?_map, Option.map_eq_some_iff] at hspec
    obtain ⟨spec, hspec, heq⟩ := hspec
    obtain ⟨rfl, rfl⟩ := Prod.mk.inj heq
    refine ⟨rfl, ?_, .inr ⟨Nat.succ_ne_zero i, rfl⟩⟩
    rw [TargetSettings.identity?, List.getElem?_cons_succ, List.getElem?_map, hspec]
    rfl

end Subnet

namespace RegisterUnit

variable {config : EngineConfig} {backend : ModuleBackend} {a : Word} {ps : List Packet}

/-- A base register that says what the module is never changes. -/
theorem content?_of_identity (hplace : a < config.boundary)
    (ha : a = vendorAddress ∨ a = typeAddress ∨ a = versionAddress) (ps : List Packet) :
    ((initial config backend).after ps).content? a =
      ((BaseRegisters.initial config.identity config.canStall).read a).toOption.map
        (BitVec.setWidth 128) := by
  have hreadOnly : ∀ v, (initial config backend).store? a v = none := by
    intro v
    show (if a < config.boundary then _ else _) = _
    rw [if_pos hplace]
    simp [BaseRegisters.write, ha, Except.toOption]
  rw [content?_after_of_readOnly hreadOnly, content?_initial, if_pos hplace]

/-- A register that cannot be read when the unit is set up never can. -/
theorem content?_of_unreadable (h : (initial config backend).content? a = none)
    (ps : List Packet) : ((initial config backend).after ps).content? a = none := by
  have haccess := (sameAccess_after (initial config backend) ps).1 a
  rw [h, Option.isSome_none, Option.isSome_eq_false_iff] at haccess
  exact Option.isNone_iff_eq_none.mp haccess

/-- The control registers that describe the subnet never change. -/
theorem content?_of_control {control : ControlBackend} (hplace : config.boundary ≤ a)
    (ha : a ≠ resetAddress) (ps : List Packet) :
    ((initial config (.control control)).after ps).content? a = control.content? a := by
  have hreadOnly : ∀ v, (initial config (.control control)).store? a v = none := by
    intro v
    show (if a < config.boundary then _ else _) = _
    rw [if_neg (BitVec.not_lt.mpr hplace)]
    simp [initial, ModuleBackend.store?, ControlBackend.store?, ha]
  rw [content?_after_of_readOnly hreadOnly, content?_initial, if_neg (BitVec.not_lt.mpr hplace)]
  rfl

/-- A register of a file that can be read holds the last value that was written to it. -/
theorem content?_of_map {file : MapBackend} {v : Value} (hplace : config.boundary ≤ a)
    (hfile : file.content? a = some v) (ps : List Packet) :
    ((initial config (.map file)).after ps).content? a =
      some ((lastWrite? a ((initial config (.map file)).writes ps)).getD v) := by
  have hkept : ∀ w, (initial config (.map file)).kept a w = w := by
    intro w
    show (if a < config.boundary then _ else _) = _
    rw [if_neg (BitVec.not_lt.mpr hplace)]
    rfl
  rw [content?_after, content?_initial, if_neg (BitVec.not_lt.mpr hplace)]
  cases lastWrite? a ((initial config (.map file)).writes ps) with
  | none => exact hfile
  | some w => simp [hkept]

end RegisterUnit

namespace Subnet

variable {link : LinkSettings} {target : TargetSettings} {config : EngineConfig}
  {backend : ModuleBackend} {i : Nat} {a v : Word} {ps : List Packet}

/-! ## Registers in their place and out of it -/

/-- What is described is a control register of the first module, or one of the three base registers
that say what a module is. -/
theorem Describes.register_cases (h : Describes link target i a v) :
    (i = 0 ∧ defaultBoundary ≤ a ∧ a ≠ resetAddress ∧
      (controlBackend link target (target.modules.length + 1)).content? a =
        some (v.setWidth 128)) ∨
    (a < defaultBoundary ∧ (a = vendorAddress ∨ a = typeAddress ∨ a = versionAddress) ∧
      ∀ identity canStall, target.identity? i = some identity →
        (BaseRegisters.initial identity canStall).read a = .ok v) := by
  cases h with
  | moduleCount hv =>
    have hcount : BitVec.ofNat 16 (target.modules.length + 1) = v := by
      rw [← hv, BitVec.ofNat_toNat, BitVec.setWidth_eq]
    exact .inl ⟨rfl, by decide, by decide, hcount ▸ rfl⟩
  | maxPacketLen hv =>
    have hlimit : BitVec.ofNat 16 link.maxPacketLen = v := by
      rw [← hv, BitVec.ofNat_toNat, BitVec.setWidth_eq]
    exact .inl ⟨rfl, by decide, by decide, hlimit ▸ rfl⟩
  | vendor hidentity =>
    refine .inr ⟨by decide, .inl rfl, fun identity canStall hsame => ?_⟩
    obtain rfl := Option.some.inj (hidentity.symm.trans hsame)
    rfl
  | moduleType hidentity =>
    refine .inr ⟨by decide, .inr (.inl rfl), fun identity canStall hsame => ?_⟩
    obtain rfl := Option.some.inj (hidentity.symm.trans hsame)
    rfl
  | version hidentity =>
    refine .inr ⟨by decide, .inr (.inr rfl), fun identity canStall hsame => ?_⟩
    obtain rfl := Option.some.inj (hidentity.symm.trans hsame)
    rfl

/-- Where the boundary leaves a register in its place it says what it should, whatever the
module has served. -/
theorem Describes.content?_of_inPlace (h : Describes link target i a v)
    (hi : (blueprints link target (target.modules.map fun _ => defaultBackend target))[i]? =
      some (config, backend)) (hplace : LeavesInPlace target a) (ps : List Packet) :
    ((RegisterUnit.initial config backend).after ps).content? a = some (v.setWidth 128) := by
  obtain ⟨hboundary, hidentity, hbackend⟩ := blueprint_cases hi
  obtain ⟨rfl, hbehind, hreset, hcontent⟩ | ⟨hbefore, haddress, hread⟩ := h.register_cases
  · obtain ⟨-, rfl⟩ := hbackend.resolve_right fun hother => hother.1 rfl
    rw [RegisterUnit.content?_of_control (hboundary ▸ hplace.mpr hbehind) hreset, hcontent]
  · have hbase : a < config.boundary := by
      rw [hboundary]
      exact BitVec.not_le.mp fun hle => absurd (hplace.mp hle) (BitVec.not_le.mpr hbefore)
    rw [RegisterUnit.content?_of_identity hbase haddress, hread _ _ hidentity]
    rfl

/-- The file that a module is given has the first registers if the boundary is before them. -/
theorem defaultBackend_content? (hplace : target.boundary ≤ a)
    (ha : a = vendorAddress ∨ a = typeAddress ∨ a = versionAddress) :
    (defaultBackend target).content? a = some 0 := by
  have hsmall : a.toNat ≤ 2 := by
    obtain rfl | rfl | rfl := ha <;> decide
  have hbefore : target.boundary.toNat ≤ a.toNat := BitVec.le_def.mp hplace
  have hlast : min (target.boundary.toNat + registerSpan) 0xffff =
      target.boundary.toNat + registerSpan := by
    unfold registerSpan
    omega
  have hend : a < BitVec.ofNat 16 (min (target.boundary.toNat + registerSpan) 0xffff) := by
    rw [hlast, BitVec.lt_def, BitVec.toNat_ofNat]
    unfold registerSpan
    omega
  have hcontains : (defaultBackend target).contains a = true := by
    rw [MapBackend.contains, Bool.and_eq_true, decide_eq_true_eq, decide_eq_true_eq]
    exact ⟨hplace, hend⟩
  rw [MapBackend.content?, hcontains]
  rfl

/-- The base registers end before the standard boundary. -/
theorem read_of_behind (r : BaseRegisters) (ha : defaultBoundary ≤ a) :
    r.read a = .error (.unimplemented a) := by
  have hother : ∀ b, b < defaultBoundary → a ≠ b := by
    rintro b hb rfl
    exact absurd ha (BitVec.not_le.mpr hb)
  rw [BaseRegisters.read, if_neg (hother _ (by decide)), if_neg (hother _ (by decide)),
    if_neg (hother _ (by decide)), if_neg (hother _ (by decide)), if_neg (hother _ (by decide))]

/-- Where the boundary has moved a register, somebody else is asked. -/
theorem Describes.content?_of_displaced (h : Describes link target i a v)
    (hi : (blueprints link target (target.modules.map fun _ => defaultBackend target))[i]? =
      some (config, backend)) (hmoved : ¬LeavesInPlace target a) (ps : List Packet) :
    (((RegisterUnit.initial config backend).after ps).content? a).map (BitVec.setWidth 16) =
      displaced (RegisterUnit.initial config backend) ps i a := by
  obtain ⟨hboundary, -, hbackend⟩ := blueprint_cases hi
  obtain ⟨rfl, hbehind, -, -⟩ | ⟨hbefore, haddress, -⟩ := h.register_cases
  · -- No base register is as far up.
    have hbase : a < config.boundary := by
      rw [hboundary]
      exact BitVec.not_le.mp fun hle => hmoved (iff_of_true hle hbehind)
    have hnone : (RegisterUnit.initial config backend).content? a = none := by
      rw [RegisterUnit.content?_initial, if_pos hbase, read_of_behind _ hbehind]
      rfl
    rw [RegisterUnit.content?_of_unreadable hnone]
    rfl
  · have hplace : config.boundary ≤ a := by
      rw [hboundary]
      by_contra hnot
      exact hmoved (iff_of_false hnot (BitVec.not_le.mpr hbefore))
    obtain ⟨rfl, rfl⟩ | ⟨hne, rfl⟩ := hbackend
    · have hreset : a ≠ resetAddress := by
        rintro rfl
        exact absurd hbefore (by decide)
      rw [RegisterUnit.content?_of_control hplace hreset]
      obtain rfl | rfl | rfl := haddress <;> rfl
    · have hfile := defaultBackend_content? (hboundary ▸ hplace) haddress
      rw [RegisterUnit.content?_of_map hplace hfile]
      simp [displaced, hne]

end Subnet

end ProbeNet
