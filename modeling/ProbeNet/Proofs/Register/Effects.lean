import ProbeNet.Proofs.Register.Access

/-!
# What requests change

A request changes a register only if it is answered with a success, and then only the register
that it names.  Everything else about a register unit stays as it was at the start.

* `ModuleBackend.stored?` is what stands in a register of a backend, also in one that cannot be
  accessed.
* `RegisterUnit.AgreeExcept` compares two units in all registers but one, and `serve_cases` says
  what serving a packet can come to.
* `RegisterUnit.fixed` forgets everything that a request can change, so `fixed_after` says what
  stays.
-/

namespace ProbeNet

open Register

namespace Register

/-! ## Base registers -/

namespace BaseRegisters

variable {r r' : BaseRegisters} {b v : Word}

/-- What is left of base registers without what a write can change. -/
def fixed (r : BaseRegisters) : BaseRegisters :=
  { r with control := if r.canStall then 0 else r.control, eventDest := 0 }

/-- A write goes to the control register or to the event destination. -/
theorem write_cases (h : r.write b v = .ok r') :
    (b = controlAddress ∧ r' = if r.canStall then { r with control := v } else r) ∨
      (b = eventDestAddress ∧ r' = { r with eventDest := .ofWord v }) := by
  unfold write at h
  split_ifs at h with hread hcontrol hstall hevent
  · exact .inl ⟨hcontrol, by rw [if_pos hstall, Except.ok.inj h]⟩
  · exact .inl ⟨hcontrol, by rw [if_neg hstall, Except.ok.inj h]⟩
  · exact .inr ⟨hevent, (Except.ok.inj h).symm⟩

theorem fixed_of_write (h : r.write b v = .ok r') : r'.fixed = r.fixed := by
  rcases write_cases h with ⟨-, rfl⟩ | ⟨-, rfl⟩
  · cases hstall : r.canStall <;> simp [fixed, hstall]
  · rfl

/-- What a module is cannot be written, and one that cannot stall is active. -/
theorem of_fixed_eq_initial {identity : Identity} {canStall : Bool}
    (h : r.fixed = (initial identity canStall).fixed) :
    r.identity = identity ∧ (canStall = false → r.isActive = true) := by
  refine ⟨congrArg BaseRegisters.identity h, ?_⟩
  rintro rfl
  have hstall : r.canStall = false := congrArg BaseRegisters.canStall h
  have hcontrol : r.control = 1 := by simpa [fixed, initial, hstall] using congrArg control h
  rw [isActive, hcontrol]
  rfl

/-- The event destination is an address. -/
theorem read_eventDest (r : BaseRegisters) : ∃ w, r.read eventDestAddress = .ok w ∧ w ≤ 0x3ff := by
  refine ⟨r.eventDest.word, rfl, ?_⟩
  have hlt := r.eventDest.isLt
  rw [BitVec.le_def, Address.word, BitVec.toNat_setWidth]
  show r.eventDest.toNat % 2 ^ 16 ≤ 1023
  omega

theorem read_of_write_of_ne (h : r.write b v = .ok r') {a : Word} (ha : a ≠ b) :
    r'.read a = r.read a := by
  rcases write_cases h with ⟨rfl, rfl⟩ | ⟨rfl, rfl⟩
  · cases hstall : r.canStall <;> simp [read, ha]
  · simp [read, ha]

end BaseRegisters

/-! ## Backends -/

namespace ModuleBackend

variable {b b' : ModuleBackend} {address : Word} {v : Value}

/-- What stands in a register of the backend, whether it can be accessed or not. -/
def stored? : ModuleBackend → Word → Option Value
  | .control b, address => (b.read address).toOption.map (BitVec.setWidth 128)
  | .map b, address => b.values.find? address

/-- What is left of a backend without what an access can change. -/
def fixed : ModuleBackend → ModuleBackend
  | .control b => .control { b with reset := 0 }
  | .map b => .map { b with values := .empty, remaining := 0 }

@[simp] theorem stored?_settled (b : ModuleBackend) (a : Word) :
    b.settled.stored? a = b.stored? a := by
  cases b <;> rfl

@[simp] theorem content?_settled (b : ModuleBackend) (a : Word) :
    b.settled.content? a = b.content? a := by
  cases b <;> rfl

@[simp] theorem fixed_settled (b : ModuleBackend) : b.settled.fixed = b.fixed := by
  cases b <;> rfl

/-- No access makes a backend slower or faster. -/
@[simp] theorem latency_fixed (b : ModuleBackend) : b.fixed.latency = b.latency := by
  cases b <;> rfl

theorem stored?_of_store? (h : b.store? address v = some b') {a : Word} (ha : a ≠ address) :
    b'.stored? a = b.stored? a := by
  cases b with
  | control b =>
    obtain ⟨c, hc, rfl⟩ := Option.map_eq_some_iff.mp h
    unfold ControlBackend.store? at hc
    split_ifs at hc with hreset
    obtain rfl := Option.some.inj hc
    rw [hreset] at ha
    simp [stored?, ControlBackend.read, ha]
  | map b =>
    obtain ⟨c, hc, rfl⟩ := Option.map_eq_some_iff.mp h
    unfold MapBackend.store? at hc
    split_ifs at hc with hserved
    obtain rfl := Option.some.inj hc
    simp [stored?, Table.find?_insert, Ne.symm ha]

theorem fixed_of_store? (h : b.store? address v = some b') : b'.fixed = b.fixed := by
  cases b with
  | control b =>
    obtain ⟨c, hc, rfl⟩ := Option.map_eq_some_iff.mp h
    unfold ControlBackend.store? at hc
    split_ifs at hc
    obtain rfl := Option.some.inj hc
    rfl
  | map b =>
    obtain ⟨c, hc, rfl⟩ := Option.map_eq_some_iff.mp h
    unfold MapBackend.store? at hc
    split_ifs at hc
    obtain rfl := Option.some.inj hc
    rfl

/-- Of control registers only the reset lines can change. -/
theorem control_of_fixed_eq {c : ControlBackend} (h : b.fixed = (ModuleBackend.control c).fixed) :
    ∃ c', b = .control c' ∧ ∀ a, a ≠ resetAddress → c'.read a = c.read a := by
  cases b with
  | map b => cases h
  | control b =>
    obtain ⟨vendor, device, count, len, reset⟩ := b
    obtain ⟨vendor', device', count', len', reset'⟩ := c
    obtain ⟨rfl, rfl, rfl, rfl, -⟩ := by simpa [fixed] using h
    exact ⟨_, rfl, fun a ha => by simp [ControlBackend.read, ha]⟩

end ModuleBackend

/-- There are two reset lines. -/
theorem ControlBackend.read_reset (b : ControlBackend) :
    ∃ w, b.read resetAddress = .ok w ∧ w ≤ 3 := by
  refine ⟨b.reset.setWidth 16, rfl, ?_⟩
  have hlt := b.reset.isLt
  rw [BitVec.le_def, BitVec.toNat_setWidth]
  show b.reset.toNat % 2 ^ 16 ≤ 3
  omega

end Register

/-! ## Units -/

namespace RegisterUnit

variable {u u' : RegisterUnit} {address : Word} {v : Value}

/-- The unit as it is between two accesses. -/
def settled (u : RegisterUnit) : RegisterUnit := { u with backend := u.backend.settled }

/-- The two units have the same in all registers but the one at `address`: in the base registers,
in what the backend stores, and in what can be read. -/
structure AgreeExcept (address : Word) (u u' : RegisterUnit) : Prop where
  base : ∀ a, ¬ (a = address ∧ a < u.config.boundary) → u'.registers.read a = u.registers.read a
  backend : ∀ a, ¬ (a = address ∧ u.config.boundary ≤ a) →
    u'.backend.stored? a = u.backend.stored? a
  seen : ∀ a, a ≠ address → u'.content? a = u.content? a

theorem content?_settled (u : RegisterUnit) (a : Word) : u.settled.content? a = u.content? a := by
  simp [content?, settled]

theorem AgreeExcept.settled (h : AgreeExcept address u u') :
    AgreeExcept address u.settled u'.settled where
  base := h.base
  backend a ha := by simpa [RegisterUnit.settled] using h.backend a ha
  seen a ha := by rw [content?_settled, content?_settled, h.seen a ha]

/-- A granted write changes the register that it names and no other one. -/
theorem agreeExcept_of_store? (h : u.store? address v = some u') : AgreeExcept address u u' := by
  have hseen : ∀ a, a ≠ address → u'.content? a = u.content? a := fun a ha => by
    rw [content?_of_store? h, if_neg (Ne.symm ha)]
  unfold store? at h
  split_ifs at h with hbase
  · obtain ⟨registers, hwrite, rfl⟩ := Option.map_eq_some_iff.mp h
    refine ⟨fun a ha => ?_, fun _ _ => rfl, hseen⟩
    exact BaseRegisters.read_of_write_of_ne (ok_of_toOption hwrite) fun heq => ha ⟨heq, heq ▸ hbase⟩
  · obtain ⟨backend, hstore, rfl⟩ := Option.map_eq_some_iff.mp h
    refine ⟨fun _ _ => rfl, fun a ha => ?_, hseen⟩
    exact ModuleBackend.stored?_of_store? hstore fun heq =>
      ha ⟨heq, heq ▸ BitVec.not_lt.mp hbase⟩

/-- Serving a packet is a granted write, or it changes nothing and is not answered like one. -/
theorem serve_cases (u : RegisterUnit) (p : Packet) :
    ((u.serve p).1 = u ∧ ∀ answer ∈ (u.serve p).2, answer.kind ≠ .register .writeSuccess) ∨
      ∃ w address ws, p.kind = .register (.writeRequest w) ∧ p.payload = address :: ws ∧
        (u.serve p).2 = some (p.reply (.register .writeSuccess) []) ∧
        u.store? address (Value.ofWords ws) = some (u.serve p).1 := by
  unfold serve
  split
  · split
    · exact .inl ⟨rfl, by simp [Packet.reply]⟩
    · exact .inl ⟨rfl, by simp [Packet.reply]⟩
  · rename_i w hkind
    split
    · rename_i u' hwrite
      obtain ⟨address, ws, hpayload, -, -, hstore⟩ := writeValue?_eq_some_iff.mp hwrite
      exact .inr ⟨w, address, ws, hkind, hpayload, rfl, hstore⟩
    · exact .inl ⟨rfl, by simp [Packet.reply]⟩
  · exact .inl ⟨rfl, by simp⟩

/-- What has become of the registers when a packet was read and answered, or a run of flits that is
no packet was dropped. -/
structure Effect (u : RegisterUnit) (packet? answer? : Option Packet) (u' : RegisterUnit) :
    Prop where
  /-- Nothing changes without a success of a write. -/
  refused : (∀ answer ∈ answer?, answer.kind ≠ .register .writeSuccess) → u' = u
  /-- The success of a write changes the register that was written. -/
  granted : ∀ answer ∈ answer?, answer.kind = .register .writeSuccess →
    ∃ request ∈ packet?, ∃ w address ws, request.kind = .register (.writeRequest w) ∧
      request.payload = address :: ws ∧ u.AgreeExcept address u'
  /-- Reading changes nothing. -/
  read : ∀ request ∈ packet?, ∀ w, request.kind = .register (.readRequest w) → u' = u

theorem effect_none (u : RegisterUnit) : u.Effect none none u :=
  ⟨fun _ => rfl, fun _ h => (by cases h), fun _ h => (by cases h)⟩

theorem effect_serve (u : RegisterUnit) (p : Packet) :
    u.settled.Effect (some p) (u.serve p).2 (u.serve p).1.settled := by
  rcases u.serve_cases p with ⟨hsame, hother⟩ | ⟨w, address, ws, hkind, hpayload, hanswer, hstore⟩
  · rw [hsame]
    exact ⟨fun _ => rfl, fun answer hmem hsuccess => absurd hsuccess (hother answer hmem),
      fun _ _ _ _ => rfl⟩
  · refine ⟨fun hother => ?_, fun _ _ _ => ?_, fun request hmem w' hread => ?_⟩
    · exact absurd rfl (hother _ hanswer)
    · exact ⟨p, rfl, w, address, ws, hkind, hpayload, (agreeExcept_of_store? hstore).settled⟩
    · obtain rfl := Option.some.inj hmem
      cases hkind.symm.trans hread

/-! ## What stays -/

/-- What is left of a unit without what a request can change. -/
def fixed (u : RegisterUnit) : RegisterUnit where
  config := u.config
  registers := u.registers.fixed
  backend := u.backend.fixed

theorem fixed_of_store? (h : u.store? address v = some u') : u'.fixed = u.fixed := by
  unfold store? at h
  split_ifs at h
  · obtain ⟨registers, hwrite, rfl⟩ := Option.map_eq_some_iff.mp h
    rw [fixed, fixed, BaseRegisters.fixed_of_write (ok_of_toOption hwrite)]
  · obtain ⟨backend, hstore, rfl⟩ := Option.map_eq_some_iff.mp h
    rw [fixed, fixed, ModuleBackend.fixed_of_store? hstore]

theorem fixed_settled (u : RegisterUnit) : u.settled.fixed = u.fixed := by
  simp [fixed, settled]

theorem fixed_serve (u : RegisterUnit) (p : Packet) : (u.serve p).1.fixed = u.fixed := by
  rcases u.serve_cases p with ⟨hsame, -⟩ | ⟨w, address, ws, -, -, -, hstore⟩
  · rw [hsame]
  · exact fixed_of_store? hstore

theorem fixed_after (u : RegisterUnit) (ps : List Packet) : (u.after ps).fixed = u.fixed := by
  induction ps generalizing u with
  | nil => rfl
  | cons p ps ih => exact (ih (u.serve p).1).trans (fixed_serve u p)

end RegisterUnit

end ProbeNet
