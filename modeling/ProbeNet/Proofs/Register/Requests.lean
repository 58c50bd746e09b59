import ProbeNet.Proofs.Register.Access

/-!
# Requests and their transactions

A transaction is written as the kind and the payload of a request, and read back from them.
Reading takes what writing makes and nothing else, and its errors share out the rest.

* `Transaction.parse_request` reads what a transaction was written as, when its value fits its
  width.  `Transaction.request_of_parse` says that what is read is written so again.
* `Transaction.parse_outcomes` lists what reading can come to.
* `parse_inverts_requests` puts both directions and the errors together.
-/

namespace ProbeNet

open Register

/-- How many words the payload of a request has. -/
def RegisterKind.requestLength? : RegisterKind → Option Nat
  | .readRequest _ => some 1
  | .writeRequest w => some (1 + w.words)
  | _ => none

theorem RegisterKind.requestLength?_eq_none_iff (kind : RegisterKind) :
    kind.requestLength? = none ↔ kind.isRequest = false := by
  cases kind <;> simp [requestLength?, isRequest]

namespace Register.Transaction

/-- The value of a write has no bits above its width. -/
def Fits (t : Transaction) : Prop := ∀ v, t.access = .write v → t.width.fits v = true

theorem fits_read (address : Word) (width : Width) : (read address width).Fits := by
  intro v hv
  cases hv

theorem fits_write (address : Word) (width : Width) (value : Value) :
    (write address width value).Fits := by
  rintro v hv
  obtain rfl : value &&& width.mask = v := Access.write.inj hv
  rw [Width.fits_iff]
  show value &&& width.mask &&& width.mask = value &&& width.mask
  rw [BitVec.and_assoc, BitVec.and_self]

variable {t : Transaction} {kind : RegisterKind} {payload : List Word}

/-- A transaction is read from the request that it was written as. -/
theorem parse_request (h : t.Fits) : parse t.requestKind t.requestPayload = .ok t := by
  obtain ⟨address, width, access⟩ := t
  cases access with
  | read => simp [parse, requestKind, requestPayload, read]
  | write v =>
    have hfits : v &&& width.mask = v := (Width.fits_iff width v).mp (h v rfl)
    simp [parse, requestKind, requestPayload, write, ofWords_toWords, hfits]

/-- What is read from a request is written as this request again. -/
theorem request_of_parse (h : parse kind payload = .ok t) :
    t.requestKind = kind ∧ t.requestPayload = payload ∧ t.Fits := by
  rcases RegisterUnit.parse_cases h with
    ⟨w, a, rfl, rfl, rfl⟩ | ⟨w, a, ws, rfl, rfl, hlength, rfl⟩
  · exact ⟨rfl, rfl, fits_read a w⟩
  · refine ⟨rfl, congrArg (a :: ·) (toWords_ofWords hlength), fun v hv => ?_⟩
    obtain rfl : Value.ofWords ws = v := Access.write.inj hv
    exact (Width.fits_iff w _).mpr (ofWords_and_mask hlength)

/-- Reading fails for want of an address, or because the payload has not the length that the
kind asks for, or because the kind is not that of a request. -/
theorem parse_outcomes (kind : RegisterKind) (payload : List Word) :
    payload = [] ∧ parse kind payload = .error .missingAddress ∨
      payload ≠ [] ∧
        ((∃ expected, kind.requestLength? = some expected ∧
            (payload.length = expected ∧ (∃ t, parse kind payload = .ok t) ∨
              payload.length ≠ expected ∧
                parse kind payload = .error (.payloadLength expected payload.length))) ∨
          kind.requestLength? = none ∧ parse kind payload = .error (.notARequest kind)) := by
  cases payload with
  | nil => exact Or.inl ⟨rfl, rfl⟩
  | cons a ws =>
    refine Or.inr ⟨List.cons_ne_nil a ws, ?_⟩
    cases kind with
    | readRequest w =>
      refine Or.inl ⟨1, rfl, ?_⟩
      by_cases hws : ws = []
      · simp [parse, hws]
      · simp [parse, hws, Nat.add_comm 1]
    | writeRequest w =>
      refine Or.inl ⟨1 + w.words, rfl, ?_⟩
      by_cases hws : ws.length = w.words
      · simp [parse, hws, Nat.add_comm 1]
      · simp [parse, hws, Nat.add_comm 1]
    | _ => exact Or.inr ⟨rfl, rfl⟩

/-! ## The errors -/

theorem parse_eq_missingAddress_iff :
    parse kind payload = .error .missingAddress ↔ payload = [] := by
  rcases parse_outcomes kind payload with
    ⟨hnil, hparse⟩ | ⟨hne, ⟨_, -, ⟨-, t, hparse⟩ | ⟨-, hparse⟩⟩ | ⟨-, hparse⟩⟩
  · exact iff_of_true hparse hnil
  · exact iff_of_false (by simp [hparse]) hne
  · exact iff_of_false (by simp [hparse]) hne
  · exact iff_of_false (by simp [hparse]) hne

theorem parse_eq_payloadLength_iff (expected actual : Nat) :
    parse kind payload = .error (.payloadLength expected actual) ↔
      payload ≠ [] ∧ kind.requestLength? = some expected ∧ payload.length ≠ expected ∧
        actual = payload.length := by
  rcases parse_outcomes kind payload with ⟨hnil, hparse⟩ | ⟨hne, ⟨needed, hneeded,
    ⟨hlength, t, hparse⟩ | ⟨hlength, hparse⟩⟩ | ⟨hnone, hparse⟩⟩
  · exact iff_of_false (by simp [hparse]) fun h => h.1 hnil
  · refine iff_of_false (by simp [hparse]) ?_
    rintro ⟨-, hexpected, hother, -⟩
    exact hother (hlength.trans (Option.some.inj (hneeded.symm.trans hexpected)))
  · rw [hparse]
    constructor
    · intro h
      cases h
      exact ⟨hne, hneeded, hlength, rfl⟩
    · rintro ⟨-, hexpected, -, rfl⟩
      rw [Option.some.inj (hneeded.symm.trans hexpected)]
  · refine iff_of_false (by simp [hparse]) ?_
    rintro ⟨-, hexpected, -⟩
    cases hnone.symm.trans hexpected

theorem parse_eq_notARequest_iff (other : RegisterKind) :
    parse kind payload = .error (.notARequest other) ↔
      payload ≠ [] ∧ kind.isRequest = false ∧ other = kind := by
  rw [← RegisterKind.requestLength?_eq_none_iff]
  rcases parse_outcomes kind payload with
    ⟨hnil, hparse⟩ | ⟨hne, ⟨needed, hneeded, ⟨-, t, hparse⟩ | ⟨-, hparse⟩⟩ | ⟨hnone, hparse⟩⟩
  · exact iff_of_false (by simp [hparse]) fun h => h.1 hnil
  · exact iff_of_false (by simp [hparse]) (by simp [hneeded])
  · exact iff_of_false (by simp [hparse]) (by simp [hneeded])
  · simp [hparse, hne, hnone, eq_comm]

end Register.Transaction

open Register.Transaction

/-- Reading a request and writing it are inverse.  A transaction that was built as a read, or as a
write of any value, is read from the request that it is written as.  From a kind and a payload a
transaction is read if and only if it is written as this kind and this payload and its value fits
its width.

All others are errors.  An empty payload misses its address, whatever the kind.  For the kind of a
request, any other payload is reported that has not exactly the words that the kind asks for, one for
a read and those of the value more for a write, with both lengths; and every other kind is reported
as none of a request. -/
theorem parse_inverts_requests :
    (∀ address width, parse (read address width).requestKind (read address width).requestPayload =
      .ok (read address width)) ∧
    (∀ address width value,
      parse (write address width value).requestKind (write address width value).requestPayload =
        .ok (write address width value)) ∧
    ∀ kind payload,
      (∀ t, parse kind payload = .ok t ↔ t.requestKind = kind ∧ t.requestPayload = payload ∧
        ∀ v, t.access = .write v → t.width.fits v = true) ∧
      (parse kind payload = .error .missingAddress ↔ payload = []) ∧
      (∀ expected actual, parse kind payload = .error (.payloadLength expected actual) ↔
        payload ≠ [] ∧ kind.requestLength? = some expected ∧ payload.length ≠ expected ∧
          actual = payload.length) ∧
      (∀ other, parse kind payload = .error (.notARequest other) ↔
        payload ≠ [] ∧ kind.isRequest = false ∧ other = kind) := by
  refine ⟨fun address width => parse_request (fits_read address width),
    fun address width value => parse_request (fits_write address width value),
    fun kind payload => ⟨fun t => ⟨request_of_parse, ?_⟩, parse_eq_missingAddress_iff,
      parse_eq_payloadLength_iff, parse_eq_notARequest_iff⟩⟩
  rintro ⟨rfl, rfl, hfits⟩
  exact parse_request hfits

end ProbeNet
