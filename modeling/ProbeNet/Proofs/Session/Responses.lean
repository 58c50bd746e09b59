import ProbeNet.Proofs.Register.Value
import ProbeNet.Session.Error

/-!
# Answers and what they are read as

A module makes an answer from its request (`Transaction.successResponse`,
`Transaction.errorResponse`), and the host reads it with `checkResponse`, which goes
through the kinds of packets on its own.  `checkResponse_cases` sorts all packets into
those that grant the access, those that refuse it, and all others.
`checkResponse_inverts_responses` says that the host reads what the module meant, and
takes nothing else for it.
-/

namespace ProbeNet

open Register

namespace Register.Transaction

/-- What the caller gets from an access that is granted when the register holds `v`. -/
def grantedValue (t : Transaction) (v : Value) : Value :=
  match t.access with
  | .read => v &&& t.width.mask
  | .write written => written

/-- The packet has the kind and the payload of the answer that grants the access with
the value `v`. -/
def Grants (t : Transaction) (p : Packet) (v : Value) : Prop :=
  match t.access with
  | .read => p.kind = .register (.readSuccess t.width) ∧ p.payload = v.toWords t.width
  | .write _ => p.kind = .register .writeSuccess ∧ p.payload = []

/-- The packet has the kind of the answer that refuses the access. -/
def Refuses (t : Transaction) (p : Packet) : Prop :=
  match t.access with
  | .read => p.kind = .register .readError
  | .write _ => p.kind = .register .writeError

variable {t : Transaction} {p : Packet} {v : Value}

theorem grants_iff (request : Packet) :
    t.Grants p v ↔ p.kind = (t.successResponse request v).kind ∧
      p.payload = (t.successResponse request v).payload := by
  unfold Grants successResponse
  cases t.access <;> rfl

theorem refuses_iff (request : Packet) :
    t.Refuses p ↔ p.kind = (t.errorResponse request).kind := by
  unfold Refuses errorResponse
  cases t.access <;> rfl

/-- No packet both grants and refuses an access. -/
theorem Grants.not_refuses (h : t.Grants p v) : ¬ t.Refuses p := by
  unfold Grants at h
  unfold Refuses
  cases haccess : t.access with
  | read =>
    rw [haccess] at h
    rw [h.1]
    simp
  | write written =>
    rw [haccess] at h
    rw [h.1]
    simp

/-- The packet that grants an access does so with one value. -/
theorem Grants.grantedValue_eq {v' : Value} (h : t.Grants p v) (h' : t.Grants p v') :
    t.grantedValue v = t.grantedValue v' := by
  unfold Grants at h h'
  unfold grantedValue
  cases haccess : t.access with
  | read =>
    rw [haccess] at h h'
    show v &&& t.width.mask = v' &&& t.width.mask
    rw [← ofWords_toWords, ← ofWords_toWords, ← h.2, ← h'.2]
  | write written => rfl

/-- What the caller gets is the value of an answer that grants the same. -/
theorem Grants.grantedValue (h : t.Grants p v) :
    t.Grants p (t.grantedValue v) ∧ t.grantedValue (t.grantedValue v) = t.grantedValue v := by
  unfold Grants Transaction.grantedValue at *
  cases haccess : t.access with
  | read =>
    rw [haccess] at h
    refine ⟨⟨h.1, ?_⟩, ?_⟩
    · rw [h.2, toWords_and_mask]
    · rw [BitVec.and_assoc, BitVec.and_self]
  | write written =>
    rw [haccess] at h
    exact ⟨h, rfl⟩

end Register.Transaction

/-! ## Reading an answer -/

variable {m : Address} {t : Transaction} {p : Packet}

/-- An answer to a read has the words of a value, or is a refusal, or is no answer. -/
theorem checkResponse_read (h : t.access = .read) :
    checkResponse m t p = .ok (Value.ofWords p.payload) ∧
        p.kind = .register (.readSuccess t.width) ∧ p.payload.length = t.width.words ∨
      checkResponse m t p = .error (.deviceError m t.address) ∧ p.kind = .register .readError ∨
      (∃ reason, checkResponse m t p = .error (.invalidResponse m reason)) ∧
        p.kind ≠ .register .readError ∧
        ¬ (p.kind = .register (.readSuccess t.width) ∧ p.payload.length = t.width.words) := by
  unfold checkResponse
  rw [h]
  cases hkind : p.kind with
  | register kind =>
    cases kind with
    | readSuccess w =>
      by_cases hwidth : w = t.width
      · subst hwidth
        by_cases hlength : p.payload.length = t.width.words
        · simp [hlength]
        · simp [hlength]
      · simp [hwidth]
    | readError => simp
    | _ => simp
  | _ => simp

/-- An answer to a write is empty, or is a refusal, or is no answer. -/
theorem checkResponse_write {written : Value} (h : t.access = .write written) :
    checkResponse m t p = .ok written ∧ p.kind = .register .writeSuccess ∧ p.payload = [] ∨
      checkResponse m t p = .error (.deviceError m t.address) ∧ p.kind = .register .writeError ∨
      (∃ reason, checkResponse m t p = .error (.invalidResponse m reason)) ∧
        p.kind ≠ .register .writeError ∧
        ¬ (p.kind = .register .writeSuccess ∧ p.payload = []) := by
  unfold checkResponse
  rw [h]
  cases hkind : p.kind with
  | register kind =>
    cases kind with
    | writeSuccess =>
      by_cases hpayload : p.payload = []
      · simp [hpayload]
      · simp [hpayload]
    | writeError => simp
    | _ => simp
  | _ => simp

/-- Every packet grants the access, refuses it, or is not an answer to it. -/
theorem checkResponse_cases (m : Address) (t : Transaction) (p : Packet) :
    (∃ v, t.Grants p v ∧ checkResponse m t p = .ok (t.grantedValue v)) ∨
    (t.Refuses p ∧ checkResponse m t p = .error (.deviceError m t.address)) ∨
    ((∀ v, ¬ t.Grants p v) ∧ ¬ t.Refuses p ∧
      ∃ reason, checkResponse m t p = .error (.invalidResponse m reason)) := by
  unfold Transaction.Grants Transaction.Refuses Transaction.grantedValue
  cases haccess : t.access with
  | read =>
    rcases checkResponse_read haccess with ⟨hok, hkind, hlength⟩ | ⟨herror, hkind⟩ |
      ⟨hinvalid, hnot, hother⟩
    · refine Or.inl ⟨Value.ofWords p.payload, ⟨hkind, (toWords_ofWords hlength).symm⟩, ?_⟩
      rw [hok]
      exact congrArg Except.ok (ofWords_and_mask hlength).symm
    · exact Or.inr (Or.inl ⟨hkind, herror⟩)
    · refine Or.inr (Or.inr ⟨fun v ⟨hkind, hpayload⟩ => hother ⟨hkind, ?_⟩, hnot, hinvalid⟩)
      rw [hpayload, Value.length_toWords]
  | write written =>
    rcases checkResponse_write haccess with ⟨hok, hgrants⟩ | ⟨herror, hkind⟩ |
      ⟨hinvalid, hnot, hother⟩
    · exact Or.inl ⟨written, hgrants, hok⟩
    · exact Or.inr (Or.inl ⟨hkind, herror⟩)
    · exact Or.inr (Or.inr ⟨fun _ hgrants => hother hgrants, hnot, hinvalid⟩)

/-- What grants an access is read as the value that it grants. -/
theorem checkResponse_of_grants {v : Value} (h : t.Grants p v) :
    checkResponse m t p = .ok (t.grantedValue v) := by
  rcases checkResponse_cases m t p with ⟨v', hgrants, hok⟩ | ⟨hrefuses, -⟩ | ⟨hnot, -⟩
  · rw [hok, h.grantedValue_eq hgrants]
  · exact absurd hrefuses h.not_refuses
  · exact absurd h (hnot v)

theorem checkResponse_of_refuses (h : t.Refuses p) :
    checkResponse m t p = .error (.deviceError m t.address) := by
  rcases checkResponse_cases m t p with ⟨v, hgrants, -⟩ | ⟨-, herror⟩ | ⟨-, hnot, -⟩
  · exact absurd h hgrants.not_refuses
  · exact herror
  · exact absurd h hnot

/-- The host reads an answer as the module meant it.  For any access, the answer that
grants it gives its value, the one that refuses it is an error of the device, and these
two results are made from no other packets; every other packet is an invalid response. -/
theorem checkResponse_inverts_responses (m : Address) (t : Transaction) (dest src : Address) :
    let request := t.toRequest dest src
    (∀ v, checkResponse m t (t.successResponse request v) = .ok (t.grantedValue v)) ∧
    checkResponse m t (t.errorResponse request) = .error (.deviceError m t.address) ∧
    ∀ p : Packet,
      (∀ x, checkResponse m t p = .ok x ↔
        (p.kind = (t.successResponse request x).kind ∧
          p.payload = (t.successResponse request x).payload) ∧ t.grantedValue x = x) ∧
      (∀ m' address, checkResponse m t p = .error (.deviceError m' address) ↔
        p.kind = (t.errorResponse request).kind ∧ m' = m ∧ address = t.address) ∧
      ((∃ reason, checkResponse m t p = .error (.invalidResponse m reason)) ↔
        p.kind ≠ (t.errorResponse request).kind ∧
          ∀ x, ¬ (p.kind = (t.successResponse request x).kind ∧
            p.payload = (t.successResponse request x).payload)) := by
  intro request
  simp only [← Transaction.grants_iff, ne_eq, ← Transaction.refuses_iff]
  refine ⟨fun v => ?granted, ?refused, fun p =>
    ⟨fun x => ⟨fun hok => ?ok, fun h => ?grants⟩,
      fun m' address => ⟨fun herror => ?error, ?refuses⟩,
      ⟨fun hinvalid => ?invalid, fun hother => ?other⟩⟩⟩
  case granted => exact checkResponse_of_grants ((Transaction.grants_iff request).mpr ⟨rfl, rfl⟩)
  case refused => exact checkResponse_of_refuses ((Transaction.refuses_iff request).mpr rfl)
  case ok =>
    rcases checkResponse_cases m t p with ⟨v, hgrants, hv⟩ | ⟨-, herror⟩ | ⟨-, -, reason, herror⟩
    · obtain rfl : t.grantedValue v = x := Except.ok.inj (hv.symm.trans hok)
      exact hgrants.grantedValue
    · cases herror.symm.trans hok
    · cases herror.symm.trans hok
  case grants => rw [checkResponse_of_grants h.1, h.2]
  case error =>
    rcases checkResponse_cases m t p with ⟨v, -, hok⟩ | ⟨hrefuses, hdevice⟩ |
      ⟨-, -, reason, hinvalid⟩
    · cases hok.symm.trans herror
    · cases hdevice.symm.trans herror
      exact ⟨hrefuses, rfl, rfl⟩
    · cases hinvalid.symm.trans herror
  case refuses =>
    rintro ⟨hrefuses, rfl, rfl⟩
    exact checkResponse_of_refuses hrefuses
  case invalid =>
    obtain ⟨reason, hinvalid⟩ := hinvalid
    rcases checkResponse_cases m t p with ⟨v, -, hok⟩ | ⟨-, herror⟩ | ⟨hnone, hnot, -⟩
    · cases hok.symm.trans hinvalid
    · cases herror.symm.trans hinvalid
    · exact ⟨hnot, hnone⟩
  case other =>
    rcases checkResponse_cases m t p with ⟨v, hgrants, -⟩ | ⟨hrefuses, -⟩ | ⟨-, -, hinvalid⟩
    · exact absurd hgrants (hother.2 v)
    · exact absurd hrefuses hother.1
    · exact hinvalid

end ProbeNet
