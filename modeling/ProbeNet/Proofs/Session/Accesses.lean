import ProbeNet.Proofs.Register.Bits
import ProbeNet.Proofs.Register.Unit
import ProbeNet.Proofs.Session.Standing

/-!
# Register accesses of operations

A register channel serves the accesses to a module one after the other, in any order in which
operations ask for them.  An `AccessRun` is a session whose register accesses go to the registers of
a module: each access of an operation is served whole, or fails, and everything else goes on in
any order.

`AccessRun.Stands` says of an operation where it stands, also while the end of its access is on the
way.  `Stands.other` and `Stands.hear` carry it over what is no end of an access.
-/

namespace ProbeNet

open Register

namespace Operation

/-- The operation has ended, or waits for a register access. -/
def IsCall {α : Type} : Operation α → Prop
  | done _ | access _ _ _ => True
  | _ => False

theorem IsCall.isHalted {α : Type} {o : Operation α} (h : o.IsCall) : o.IsHalted := by
  cases o with
  | done a => trivial
  | access m t next => trivial
  | _ => exact h.elim

end Operation

/-! ## Runs -/

/-- The event neither starts an operation nor ends a register access. -/
def SessionEvent.IsAround {α : Type} : SessionEvent α → Prop
  | .start _ _ | .hear _ (.accessed _) => False
  | _ => True

/-- What happens in a session whose register accesses go to a module. -/
inductive AccessEvent (α : Type) where
  /-- Something else happens in the session. -/
  | other (event : SessionEvent α) (h : event.IsAround)
  /-- The module serves the access that an operation waits for.  The access can fail all the same,
  when the answer does not come through. -/
  | serve (id : Nat) (failure : Option SessionError)
  /-- The access fails, and the module does not get to see it. -/
  | fail (id : Nat) (e : SessionError)
  /-- An operation hears how its access has ended. -/
  | hear (id : Nat)

/-- A session, with the registers of the module that register accesses go to. -/
structure AccessRun (α : Type) where
  run : SessionRun α
  unit : RegisterUnit
  /-- How accesses have ended that operations have not heard of yet. -/
  ends : Table Nat (Except SessionError Value) := .empty
  /-- The accesses that the module has served, the oldest first. -/
  served : List ServedAccess := []

def ServedAccess.ofTransaction (call : Nat) (t : Transaction) : ServedAccess :=
  if t.isWrite then .write call else .read call

namespace AccessRun

variable {α : Type}

/-- The access to the module `m` that an operation waits for. -/
def asking? (r : AccessRun α) (m : Address) (id : Nat) : Option Transaction :=
  match r.run.running.find? id, r.ends.find? id with
  | some (.access m' t _), none => if m' = m then some t else none
  | _, _ => none

/-- The access of an operation has ended. -/
def close (r : AccessRun α) (id : Nat) (result : Except SessionError Value) : AccessRun α :=
  { r with ends := r.ends.insert id result }

/-- The module serves an access. -/
def serve (r : AccessRun α) (m : Address) (id : Nat) (t : Transaction)
    (failure : Option SessionError) : AccessRun α :=
  let (unit, answer) := r.unit.serve (t.toRequest m r.run.session.config.host)
  let result : Except SessionError Value :=
    match failure, answer with
    | some e, _ => .error e
    | none, some p => checkResponse m t p
    | none, none => .error (.timeout m t.address)
  { r with unit, served := r.served ++ [ServedAccess.ofTransaction id t] }.close id result

/-- The run after an event. -/
def act (m : Address) (r : AccessRun α) : AccessEvent α → AccessRun α
  | .other event _ => { r with run := r.run.act event }
  | .serve id failure =>
    match r.asking? m id with
    | some t => r.serve m id t failure
    | none => r
  | .fail id e =>
    match r.asking? m id with
    | some _ => r.close id (.error e)
    | none => r
  | .hear id =>
    match r.ends.find? id with
    | some result =>
      { r with run := r.run.act (.hear id (.accessed result)), ends := r.ends.erase id }
    | none => r

/-- The run after some events. -/
def after (m : Address) (r : AccessRun α) (events : List (AccessEvent α)) : AccessRun α :=
  events.foldl (act m) r

/-! ## Where a call stands -/

/-- What the operation has come to, or comes to when it hears how its access has ended, leads to
something that the condition holds of. -/
def Stands (P : Operation α → Prop) (id : Nat) (r : AccessRun α) : Prop :=
  (r.ends.find? id = none ∧ r.run.Stands (fun _ => True) P id) ∨
    ∃ m t next result, r.ends.find? id = some result ∧
      r.run.running.find? id = some (.access m t next) ∧ r.run.results.find? id = none ∧
      (next result).Leads (fun _ => True) P

variable {P Q : Operation α → Prop} {r r' : AccessRun α} {id : Nat} {m : Address}

theorem Stands.congr (h : r.Stands P id) (hends : r'.ends.find? id = r.ends.find? id)
    (hsame : SessionRun.SameAt id r.run r'.run) : r'.Stands P id := by
  rcases h with ⟨hnone, hstands⟩ | ⟨m, t, next, result, hresult, hrunning, hresults, hleads⟩
  · exact Or.inl ⟨hends.trans hnone, hstands.congr hsame⟩
  · exact Or.inr ⟨m, t, next, result, hends.trans hresult, hsame.running.trans hrunning,
      hsame.results.trans hresults, hleads⟩

/-- The condition holds of what an operation has ended with. -/
theorem Stands.of_result (h : r.Stands P id) {a : α} (ha : r.run.results.find? id = some a) :
    P (.done a) := by
  rcases h with ⟨-, hstands⟩ | ⟨-, -, -, -, -, -, hresults, -⟩
  · exact hstands.of_result ha
  · cases hresults.symm.trans ha

/-- An operation whose access can be served stands before that access. -/
theorem Stands.of_asking (h : r.Stands P id) {t : Transaction} (ht : r.asking? m id = some t) :
    ∃ next, r.run.running.find? id = some (.access m t next) ∧
      r.run.results.find? id = none ∧ P (.access m t next) := by
  unfold asking? at ht
  split at ht
  · rename_i m' t' next hrunning hnone
    split_ifs at ht with hm
    obtain rfl := Option.some.inj ht
    subst hm
    rcases h with ⟨-, hstands⟩ | ⟨-, -, -, result, hresult, -⟩
    · obtain ⟨hresults, hleads⟩ := hstands.of_running hrunning
      exact ⟨next, hrunning, hresults, hleads⟩
    · cases hresult.symm.trans hnone
  · cases ht

/-- An operation whose access has ended stands where what it hears then leads. -/
theorem stands_close {t : Transaction} {next : Except SessionError Value → Operation α}
    {result : Except SessionError Value}
    (hrunning : r.run.running.find? id = some (.access m t next))
    (hresults : r.run.results.find? id = none) (hnext : (next result).Leads (fun _ => True) P) :
    (r.close id result).Stands P id :=
  Or.inr ⟨m, t, next, result, (Table.find?_insert ..).trans (if_pos rfl), hrunning, hresults,
    hnext⟩

theorem stands_close_of_ne {i : Nat} (hi : i ≠ id) (h : r.Stands P id)
    (result : Except SessionError Value) : (r.close i result).Stands P id :=
  h.congr ((Table.find?_insert ..).trans (if_neg hi)) ⟨rfl, rfl⟩

theorem Stands.other (h : r.Stands P id) (hP : ∀ o, P o → o.IsCall) {event : SessionEvent α}
    (hevent : event.IsAround) : Stands P id { r with run := r.run.act event } := by
  have hstart : ∀ i o, event ≠ .start i o := by
    rintro i o rfl
    exact hevent
  have hstill : ∀ outcome o, event = .hear id outcome → o.IsCall →
      r.run.hear id o outcome = r.run := by
    rintro outcome o rfl ho
    cases o with
    | done a => cases outcome <;> rfl
    | access m t next =>
      cases outcome with
      | accessed v => exact hevent.elim
      | _ => rfl
    | _ => exact ho.elim
  rcases h with ⟨hnone, hstands⟩ | ⟨m, t, next, result, hresult, hrunning, hresults, hleads⟩
  · refine Or.inl ⟨hnone, hstands.act (fun o ho => ?_) trivial hstart
      fun outcome o hevent _ ho => ?_⟩
    · exact (hP o ho).isHalted
    · exact hstill outcome o hevent (hP o ho)
  · have hsame : SessionRun.SameAt id r.run (r.run.act event) := by
      rcases r.run.act_cases_at id event with hsame | ⟨o, -, ho, hact⟩ |
        ⟨o, outcome, hevent, ho, hact⟩ | ⟨o, rfl⟩
      · exact hsame
      · obtain rfl := Option.some.inj (ho.symm.trans hrunning)
        rw [hact]
        exact ⟨rfl, rfl⟩
      · obtain rfl := Option.some.inj (ho.symm.trans hrunning)
        have hcall : (Operation.access m t next).IsCall := trivial
        rw [hact, hstill outcome _ hevent hcall]
        exact ⟨rfl, rfl⟩
      · exact absurd rfl (hstart id o)
    exact Or.inr ⟨m, t, next, result, hresult, hsame.running.trans hrunning,
      hsame.results.trans hresults, hleads⟩

/-- An operation that hears how its access has ended comes to where it stands. -/
theorem Stands.hear (h : r.Stands P id) (i : Nat) : (r.act m (.hear i)).Stands P id := by
  simp only [act]
  split
  · rename_i result hresult
    by_cases hi : i = id
    · subst hi
      rcases h with ⟨hnone, -⟩ | ⟨m, t, next, result', hresult', hrunning, hresults, hleads⟩
      · cases hnone.symm.trans hresult
      · obtain rfl := Option.some.inj (hresult'.symm.trans hresult)
        refine Or.inl ⟨(Table.find?_erase ..).trans (if_pos rfl), ?_⟩
        simp only [SessionRun.act, hrunning]
        exact SessionRun.stands_park hresults hleads
    · refine h.congr ((Table.find?_erase ..).trans (if_neg hi)) ?_
      simp only [SessionRun.act]
      split
      · exact SessionRun.sameAt_hear hi ..
      · exact ⟨rfl, rfl⟩
  · exact h

end AccessRun

end ProbeNet
