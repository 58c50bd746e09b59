import ProbeNet.Proofs.Register.Unit
import ProbeNet.Proofs.Register.Value

/-!
# Accesses of a register unit

The engine takes a request apart into a transaction and sends that to the
base registers or to the backend, which may let it wait.  This module says
what a whole access comes to, and that it is what the unit answers.

* `ModuleBackend.settled` forgets how far an access is; `poll_cases` splits a
  poll into waiting, which changes nothing else, and completion.
* `RegisterUnit.perform` is a transaction without waiting.
* `serve_of_parse` and `serve_of_parse_error` give the answer of a unit for
  what the engine makes of a request.
-/

namespace ProbeNet

open Register

namespace Register.ModuleBackend

/-- The backend as it is between two accesses. -/
def settled : ModuleBackend → ModuleBackend
  | .control b => .control b
  | .map b => .map { b with remaining := 0 }

/-- How many polls are left before the one that completes the access. -/
def waiting : ModuleBackend → Nat
  | .control _ => 0
  | .map b => b.remaining

/-- How many polls an access has to wait for. -/
def latency : ModuleBackend → Nat
  | .control _ => 0
  | .map b => b.latency

/-- Completes an access. -/
def complete : ModuleBackend → Transaction → ModuleBackend × Except Fault Value
  | .control b, t => (.control (b.complete t).1, (b.complete t).2)
  | .map b, t => (.map (b.complete t).1, (b.complete t).2)

/-- A poll completes the access, or it is one poll nearer to its end. -/
theorem poll_cases (b : ModuleBackend) (t : Transaction) :
    b.waiting = 0 ∧ Backend.poll b t = ((b.complete t).1, .ready (b.complete t).2) ∨
      ∃ b', Backend.poll b t = (b', .pending) ∧ b'.settled = b.settled ∧
        b'.waiting + 1 = b.waiting := by
  cases b with
  | control b => exact Or.inl ⟨rfl, rfl⟩
  | map b =>
    by_cases hrest : b.remaining = 0
    · refine Or.inl ⟨hrest, ?_⟩
      simp [Backend.poll, hrest, complete]
    · refine Or.inr ⟨.map { b with remaining := b.remaining - 1 }, ?_, rfl, ?_⟩
      · simp [Backend.poll, hrest]
      · simp only [waiting]
        omega

theorem start_settled (b : ModuleBackend) (t : Transaction) :
    (Backend.start b t).settled = b.settled := by
  cases b <;> rfl

theorem start_waiting (b : ModuleBackend) (t : Transaction) :
    (Backend.start b t).waiting = b.latency := by
  cases b <;> rfl

/-- Completing an access does not look at how far the last one was. -/
theorem map_complete_remaining (b : MapBackend) (t : Transaction) (n : Nat) :
    ({ b with remaining := n } : MapBackend).complete t =
      ({ (b.complete t).1 with remaining := n }, (b.complete t).2) := by
  have hcontains : ({ b with remaining := n } : MapBackend).contains t.address =
      b.contains t.address := rfl
  have hvalue : ({ b with remaining := n } : MapBackend).value t.address =
      b.value t.address := rfl
  simp only [MapBackend.complete, hcontains, hvalue]
  by_cases hin : b.contains t.address
  · by_cases hfaulty : t.address ∈ b.faulty
    · simp [hin, hfaulty]
    · cases t.access <;> simp [hin, hfaulty]
  · simp [hin]

/-- How far the last access is does not matter for the next one. -/
theorem complete_settled (b : ModuleBackend) (t : Transaction) :
    b.settled.complete t = ((b.complete t).1.settled, (b.complete t).2) := by
  cases b with
  | control b => rfl
  | map b => simp [settled, complete, map_complete_remaining b t 0]

theorem complete_congr {b c : ModuleBackend} (h : b.settled = c.settled) (t : Transaction) :
    (b.complete t).1.settled = (c.complete t).1.settled ∧ (b.complete t).2 = (c.complete t).2 := by
  have hpair : ((b.complete t).1.settled, (b.complete t).2) =
      ((c.complete t).1.settled, (c.complete t).2) := by
    rw [← complete_settled, ← complete_settled, h]
  exact Prod.mk.inj hpair

end Register.ModuleBackend

/-! ## Transactions without waiting -/

namespace RegisterUnit

/-- Serves a transaction at once.  Returns the value of a granted one. -/
def perform (u : RegisterUnit) (t : Transaction) : RegisterUnit × Option Value :=
  if ¬ u.admits t.address t.width then (u, none)
  else if t.address < u.config.boundary then
    ({ u with registers := (u.registers.serve t).1 }, (u.registers.serve t).2.toOption)
  else ({ u with backend := (u.backend.complete t).1 }, (u.backend.complete t).2.toOption)

/-- The answer to a request for a transaction that was granted or refused. -/
def respond (t : Transaction) (request : Packet) : Option Value → Packet
  | some v => t.successResponse request v
  | none => t.errorResponse request

theorem parse_cases {kind : RegisterKind} {payload : List Word} {t : Transaction}
    (h : Transaction.parse kind payload = .ok t) :
    (∃ w a, kind = .readRequest w ∧ payload = [a] ∧ t = .read a w) ∨
      ∃ w a ws, kind = .writeRequest w ∧ payload = a :: ws ∧ ws.length = w.words ∧
        t = { address := a, width := w, access := .write (Value.ofWords ws) } := by
  cases payload with
  | nil => cases h
  | cons a ws =>
    cases kind with
    | readRequest w =>
      simp only [Transaction.parse] at h
      split_ifs at h with hws
      subst hws
      exact Or.inl ⟨w, a, rfl, rfl, (Except.ok.inj h).symm⟩
    | writeRequest w =>
      simp only [Transaction.parse] at h
      split_ifs at h with hlen
      refine Or.inr ⟨w, a, ws, rfl, rfl, hlen, ?_⟩
      rw [← Except.ok.inj h, Transaction.write, ofWords_and_mask hlen]
    | _ => cases h

theorem perform_read (u : RegisterUnit) (a : Word) (w : Width) :
    (u.perform (.read a w)).1 = u ∧
      (u.perform (.read a w)).2.map (·.toWords w) =
        (u.readValue? w [a]).map (·.toWords w) := by
  simp only [perform, Transaction.read, readValue?]
  by_cases hadmits : u.admits a w
  · by_cases hbase : a < u.config.boundary
    · simp only [hadmits, hbase, content?, BaseRegisters.serve]
      cases u.registers.read a <;> simp [Except.toOption, Except.map]
    · simp only [hadmits, hbase, content?]
      cases hb : u.backend with
      | control b =>
        simp only [ModuleBackend.complete, ControlBackend.complete, ModuleBackend.content?,
          ControlBackend.content?]
        cases b.read a <;> simp [Except.toOption, Except.map, ← hb]
      | map b =>
        simp only [ModuleBackend.complete, MapBackend.complete, ModuleBackend.content?,
          MapBackend.content?]
        by_cases hin : b.contains a <;> by_cases hfaulty : a ∈ b.faulty <;>
          simp [hin, hfaulty, Except.toOption, toWords_and_mask, ← hb]
  · simp [hadmits]

theorem perform_write (u : RegisterUnit) (a : Word) (w : Width) (v : Value) :
    u.perform { address := a, width := w, access := .write v } =
      match if u.admits a w then u.store? a v else none with
      | some u' => (u', some v)
      | none => (u, none) := by
  simp only [perform]
  by_cases hadmits : u.admits a w
  · by_cases hbase : a < u.config.boundary
    · simp only [hadmits, hbase, store?, BaseRegisters.serve]
      cases u.registers.write a (v.setWidth 16) <;> simp [Except.toOption]
    · simp only [hadmits, hbase, store?]
      cases hb : u.backend with
      | control b =>
        simp only [ModuleBackend.complete, ControlBackend.complete, ModuleBackend.store?,
          ControlBackend.store?]
        by_cases hreset : a = resetAddress
        · simp [hreset, Except.toOption]
        · cases b.read a <;> simp [hreset, Except.toOption, ← hb]
      | map b =>
        simp only [ModuleBackend.complete, MapBackend.complete, ModuleBackend.store?,
          MapBackend.store?]
        by_cases hin : b.contains a <;> by_cases hfaulty : a ∈ b.faulty <;>
          simp [hin, hfaulty, Except.toOption, ← hb]
  · simp [hadmits]

/-! ## The answer of a unit -/

theorem serve_of_parse {u : RegisterUnit} {p : Packet} {kind : RegisterKind} {t : Transaction}
    (hkind : p.kind = .register kind) (h : Transaction.parse kind p.payload = .ok t) :
    u.serve p = ((u.perform t).1, some (respond t p (u.perform t).2)) := by
  rcases parse_cases h with ⟨w, a, rfl, hpayload, rfl⟩ | ⟨w, a, ws, rfl, hpayload, hlen, rfl⟩
  · obtain ⟨hunit, hvalue⟩ := perform_read u a w
    simp only [serve, hkind, hpayload, hunit]
    cases hread : u.readValue? w [a] with
    | none =>
      rw [hread, Option.map_none, Option.map_eq_none_iff] at hvalue
      rw [hvalue]
      rfl
    | some v =>
      rw [hread, Option.map_some, Option.map_eq_some_iff] at hvalue
      obtain ⟨v', hv', hwords⟩ := hvalue
      rw [hv']
      simp [respond, Transaction.successResponse, Transaction.read, hwords]
  · rw [perform_write]
    simp only [serve, hkind, hpayload, writeValue?, hlen, true_and]
    cases (if u.admits a w = true then u.store? a (Value.ofWords ws) else none) with
    | none => rfl
    | some u' => rfl

theorem serve_of_parse_error {u : RegisterUnit} {p : Packet} {kind : RegisterKind}
    {e : FormatError} (hkind : p.kind = .register kind) (hrequest : kind.isRequest = true)
    (h : Transaction.parse kind p.payload = .error e) :
    u.serve p = (u, some (respond (Engine.placeholder kind p.payload) p none)) := by
  cases kind with
  | readRequest w =>
    have hread : u.readValue? w p.payload = none := by
      cases hp : p.payload with
      | nil => rfl
      | cons a ws =>
        cases ws with
        | nil => simp [hp, Transaction.parse] at h
        | cons b ws => rfl
    simp [serve, hkind, hread, respond, Engine.placeholder, Transaction.read,
      Transaction.errorResponse]
  | writeRequest w =>
    have hwrite : u.writeValue? w p.payload = none := by
      cases hp : p.payload with
      | nil => rfl
      | cons a ws =>
        have hlen : ws.length ≠ w.words := by
          intro hlen
          simp [hp, Transaction.parse, hlen] at h
        simp [writeValue?, hlen]
    simp [serve, hkind, hwrite, respond, Engine.placeholder, Transaction.write,
      Transaction.errorResponse]
  | _ => cases hrequest

end RegisterUnit

end ProbeNet
