import ProbeNet.Proofs.Register.Reads
import ProbeNet.Proofs.Session.Accesses
import ProbeNet.Proofs.Session.Responses

/-!
# Calls that set bits of one register

A call that sets a bit of a register makes two accesses, and the register channel keeps apart only
accesses.  An `AccessRun` is a session whose register accesses go to the registers of a module:
each access of an operation is served whole, or fails, and everything else goes on in any order.

* `leads_registerSetBit` is what such a call waits for, and what it makes of it.
* `Stores.serve_read` and `Stores.serve_write` are what an access to a register file comes to.
* `Accounts` says that the accesses served so far, replayed, explain what the register holds and
  where both calls stand.  `Accounts.act` carries it over one event.
* `set_bits_kept_iff` says when the bits of both calls are kept.
-/

namespace ProbeNet

open Register

/-! ## The register -/

/-- The register at `address` belongs to the module's register file, does not fail, and holds
`v`. -/
structure RegisterUnit.Stores (u : RegisterUnit) (address : Word) (v : Value) : Prop where
  beyond : u.config.boundary ≤ address
  file : ∃ b, u.backend = .map b ∧ b.content? address = some v

namespace RegisterUnit

variable {u : RegisterUnit} {address : Word} {v : Value}

theorem Stores.content (h : u.Stores address v) : u.content? address = some v := by
  obtain ⟨b, hb, hcontent⟩ := h.file
  rw [content?, if_neg (BitVec.not_lt.mpr h.beyond), hb]
  exact hcontent

/-- The register takes any value. -/
theorem Stores.store (h : u.Stores address v) (x : Value) :
    ∃ u', u.store? address x = some u' ∧ u'.Stores address x := by
  obtain ⟨b, hb, hcontent⟩ := h.file
  have hserved : (b.contains address && !b.faulty.contains address) = true := by
    by_contra hrefused
    rw [MapBackend.content?, if_neg hrefused] at hcontent
    cases hcontent
  let b' : MapBackend := { b with values := b.values.insert address x }
  have hstore : b.store? address x = some b' := if_pos hserved
  refine ⟨{ u with backend := .map b' }, ?_, h.beyond, b', rfl, ?_⟩
  · rw [store?, if_neg (BitVec.not_lt.mpr h.beyond), hb]
    show ((b.store? address x).map ModuleBackend.map).map _ = _
    rw [hstore]
    rfl
  · rw [map_content?_of_store? hstore, if_pos rfl]

/-- A 16-bit read is answered with the lowest 16 bits. -/
theorem Stores.serve_read (h : u.Stores address v) (m host : Address) :
    ∃ answer, u.serve ((Transaction.read address .w16).toRequest m host) = (u, some answer) ∧
      checkResponse m (.read address .w16) answer = .ok (v &&& Width.w16.mask) := by
  let request := (Transaction.read address .w16).toRequest m host
  have hread : u.readValue? .w16 request.payload = some v :=
    readValue?_eq_some_iff.mpr ⟨address, rfl, u.admits_word address, h.content⟩
  exact ⟨_, serve_of_readValue? rfl hread, checkResponse_of_grants ⟨rfl, rfl⟩⟩

/-- A 16-bit write replaces the whole value. -/
theorem Stores.serve_write (h : u.Stores address v) (m host : Address) (x : Value) :
    ∃ u' answer, u.serve ((Transaction.write address .w16 x).toRequest m host) = (u', some answer) ∧
      (∃ written, checkResponse m (.write address .w16 x) answer = .ok written) ∧
      u'.Stores address (x &&& Width.w16.mask) := by
  let request := (Transaction.write address .w16 x).toRequest m host
  obtain ⟨u', hstore, hstores⟩ := h.store (x &&& Width.w16.mask)
  have hwrite : u.writeValue? .w16 request.payload = some u' := by
    refine writeValue?_eq_some_iff.mpr
      ⟨address, _, rfl, Value.length_toWords .., u.admits_word address, ?_⟩
    rw [ofWords_toWords, BitVec.and_assoc]
    show u.store? address (x &&& (Width.w16.mask &&& Width.w16.mask)) = some u'
    rw [BitVec.and_self, hstore]
  exact ⟨u', _, serve_of_writeValue? rfl hwrite, ⟨_, checkResponse_of_grants (v := x) ⟨rfl, rfl⟩⟩,
    hstores⟩

end RegisterUnit

/-! ## The calls -/

namespace Operation

/-- The call has succeeded. -/
def IsSucceeded : Operation (Except SessionError Unit) → Prop
  | done (.ok ()) => True
  | _ => False

/-- The call waits for an access, with whose value it goes on; or it has failed. -/
def Awaits (m : Address) (t : Transaction)
    (goal : Value → Operation (Except SessionError Unit) → Prop) :
    Operation (Except SessionError Unit) → Prop
  | access m' t' next => m' = m ∧ t' = t ∧ (∀ v, (next (.ok v)).Leads (fun _ => True) (goal v)) ∧
      ∀ e, (next (.error e)).Leads (fun _ => True) IsFailed
  | o => o.IsFailed

theorem IsFailed.isCall {o : Operation (Except SessionError Unit)} (h : o.IsFailed) :
    o.IsCall := by
  cases o with
  | done a => trivial
  | _ => exact h.elim

theorem IsSucceeded.isCall {o : Operation (Except SessionError Unit)} (h : o.IsSucceeded) :
    o.IsCall := by
  cases o with
  | done a => trivial
  | _ => exact h.elim

theorem Awaits.isCall {m : Address} {t : Transaction}
    {goal : Value → Operation (Except SessionError Unit) → Prop}
    {o : Operation (Except SessionError Unit)} (h : o.Awaits m t goal) : o.IsCall := by
  cases o with
  | done a => trivial
  | access m' t' next => trivial
  | _ => exact h.elim

end Operation

namespace BitCall

open Operation

/-- The call writes the register, unless the value that it has read has the bit as requested. -/
def AwaitsWrite (c : BitCall) (m : Address) (address : Word) (v : Value)
    (o : Operation (Except SessionError Unit)) : Prop :=
  if c.apply v = v then o.IsSucceeded
  else o.Awaits m (.write address .w16 (c.apply v)) fun _ => IsSucceeded

/-- The call has not read the register yet. -/
def AwaitsRead (c : BitCall) (m : Address) (address : Word) :
    Operation (Except SessionError Unit) → Prop :=
  Awaits m (.read address .w16) (c.AwaitsWrite m address)

theorem AwaitsWrite.isCall {c : BitCall} {m : Address} {address : Word} {v : Value}
    {o : Operation (Except SessionError Unit)} (h : c.AwaitsWrite m address v o) : o.IsCall := by
  unfold AwaitsWrite at h
  split at h
  · exact h.isCall
  · exact h.isCall

end BitCall

theorem leads_registerWrite (m : Address) (address : Word) (v : Value) :
    (Session.registerWrite m .w16 address v).run.Leads (fun _ => True)
      (Operation.Awaits m (.write address .w16 v) fun _ => Operation.IsSucceeded) := by
  unfold Session.registerWrite
  dsimp only
  split
  · refine (SessionM.looks_checkModule m).leads_bind (fun _ => ?_) fun _ => trivial
    exact ⟨rfl, rfl, fun _ => trivial, fun _ => trivial⟩
  · exact trivial

/-- A call that sets a bit reads the register and then writes it. -/
theorem leads_registerSetBit {c : BitCall} (hbit : c.bit < 16) (m : Address) (address : Word) :
    (Session.registerSetBit m address c.bit c.on).run.Leads (fun _ => True)
      (c.AwaitsRead m address) := by
  unfold Session.registerSetBit
  dsimp only
  rw [if_neg (by omega)]
  have hread : (Session.registerRead m .w16 address).run.Leads (fun _ => True) fun o =>
      o = .access m (.read address .w16) .done ∨ ∃ e, o = .done (.error e) :=
    (SessionM.looks_checkModule m).leads_bind (fun _ => Or.inl rfl) fun e => Or.inr ⟨e, rfl⟩
  refine Operation.leads_bind hread ?_
  rintro _ (rfl | ⟨e, rfl⟩)
  · refine ⟨rfl, rfl, fun v => ?_, fun _ => trivial⟩
    by_cases hsame : c.apply v = v
    · have hdone : c.AwaitsWrite m address v (.done (.ok ())) := by
        rw [BitCall.AwaitsWrite, if_pos hsame]
        trivial
      show (ite (c.apply v ≠ v) _ _ : SessionM Unit).run.Leads _ _
      rw [if_neg (not_not_intro hsame)]
      exact hdone
    · show (ite (c.apply v ≠ v) _ _ : SessionM Unit).run.Leads _ _
      rw [if_pos hsame]
      refine (leads_registerWrite m address _).mono (fun _ => id) fun o ho => ?_
      rw [BitCall.AwaitsWrite, if_neg hsame]
      exact ho
  · exact trivial

theorem leads_registerSetBit_of_le {c : BitCall} (hbit : 16 ≤ c.bit) (m : Address)
    (address : Word) :
    (Session.registerSetBit m address c.bit c.on).run.Leads (fun _ => True)
      Operation.IsFailed := by
  unfold Session.registerSetBit
  dsimp only
  rw [if_pos hbit]
  trivial

/-! ## Accounts -/

namespace AccessRun

open Operation ServedAccess

variable {calls : Nat → BitCall} {m : Address} {address : Word} {v : Value}
  {r : AccessRun (Except SessionError Unit)} {id : Nat}

/-- Where a call stands, told from the accesses that were served for it, unless it has failed. -/
inductive Progress (calls : Nat → BitCall) (m : Address) (address : Word) (v : Value) (id : Nat)
    (r : AccessRun (Except SessionError Unit)) : Prop where
  | failed (h : r.Stands IsFailed id)
  | fresh (hbit : (calls id).bit < 16) (hown : r.served.filter (·.call = id) = [])
    (h : r.Stands ((calls id).AwaitsRead m address) id)
  | seen (hbit : (calls id).bit < 16) (hown : r.served.filter (·.call = id) = [read id])
    (h : r.Stands
      ((calls id).AwaitsWrite m address ((Replay.ofServed calls v r.served).seen id)) id)
  | written (hbit : (calls id).bit < 16)
    (hown : r.served.filter (·.call = id) = [read id, write id])
    (hchanged : (calls id).apply ((Replay.ofServed calls v r.served).seen id) ≠
      (Replay.ofServed calls v r.served).seen id)
    (h : r.Stands IsSucceeded id)

/-- Two calls run, the accesses that were served are theirs, and the register that held `v` holds
what these have left there. -/
structure Accounts (calls : Nat → BitCall) (m : Address) (address : Word) (v : Value)
    (r : AccessRun (Except SessionError Unit)) : Prop where
  alone : ∀ id, 2 ≤ id → r.run.running.find? id = none
  known : ∀ access ∈ r.served, access.call < 2
  stored : r.unit.Stores address (Replay.ofServed calls v r.served).word
  progress : ∀ id, id < 2 → r.Progress calls m address v id

/-- Where a call stands does not change with what is served for others. -/
theorem Progress.mono (h : r.Progress calls m address v id)
    {r' : AccessRun (Except SessionError Unit)}
    (hown : r'.served.filter (·.call = id) = r.served.filter (·.call = id))
    (hseen : (Replay.ofServed calls v r'.served).seen id =
      (Replay.ofServed calls v r.served).seen id)
    (hstands : ∀ P, (∀ o, P o → o.IsCall) → r.Stands P id → r'.Stands P id) :
    r'.Progress calls m address v id := by
  cases h with
  | failed h => exact .failed (hstands _ (fun _ => IsFailed.isCall) h)
  | fresh hbit hnone h =>
    exact .fresh hbit (hown.trans hnone) (hstands _ (fun _ => Awaits.isCall) h)
  | seen hbit hread h =>
    refine .seen hbit (hown.trans hread) (hstands _ (fun _ => BitCall.AwaitsWrite.isCall) ?_)
    rwa [hseen]
  | written hbit hboth hchanged h =>
    refine .written hbit (hown.trans hboth) ?_ (hstands _ (fun _ => IsSucceeded.isCall) h)
    rwa [hseen]

/-- The next access of a call: it reads, or writes what it makes of what it has read. -/
theorem Progress.of_asking (h : r.Progress calls m address v id) {t : Transaction}
    (ht : r.asking? m id = some t) :
    ∃ next, (calls id).bit < 16 ∧ r.run.running.find? id = some (.access m t next) ∧
      r.run.results.find? id = none ∧ (∀ e, (next (.error e)).Leads (fun _ => True) IsFailed) ∧
      ((r.served.filter (·.call = id) = [] ∧ t = .read address .w16 ∧
          ∀ x, (next (.ok x)).Leads (fun _ => True) ((calls id).AwaitsWrite m address x)) ∨
        (r.served.filter (·.call = id) = [read id] ∧
          (calls id).apply ((Replay.ofServed calls v r.served).seen id) ≠
            (Replay.ofServed calls v r.served).seen id ∧
          t = .write address .w16
            ((calls id).apply ((Replay.ofServed calls v r.served).seen id)) ∧
          ∀ x, (next (.ok x)).Leads (fun _ => True) IsSucceeded)) := by
  cases h with
  | failed h =>
    obtain ⟨next, -, -, hfailed⟩ := h.of_asking ht
    exact hfailed.elim
  | fresh hbit hown h =>
    obtain ⟨next, hrunning, hresults, -, rfl, hok, herror⟩ := h.of_asking ht
    exact ⟨next, hbit, hrunning, hresults, herror, Or.inl ⟨hown, rfl, hok⟩⟩
  | seen hbit hown h =>
    obtain ⟨next, hrunning, hresults, hwrite⟩ := h.of_asking ht
    unfold BitCall.AwaitsWrite at hwrite
    split_ifs at hwrite with hsame
    · exact hwrite.elim
    · obtain ⟨-, rfl, hok, herror⟩ := hwrite
      exact ⟨next, hbit, hrunning, hresults, herror, Or.inr ⟨hown, hsame, rfl, hok⟩⟩
  | written hbit hown hchanged h =>
    obtain ⟨next, -, -, hdone⟩ := h.of_asking ht
    exact hdone.elim

theorem Accounts.lt_of_asking (h : r.Accounts calls m address v) {t : Transaction}
    (ht : r.asking? m id = some t) : id < 2 := by
  by_contra hle
  have hnone := h.alone id (by omega)
  unfold asking? at ht
  rw [hnone] at ht
  cases ht

theorem serve_eq {t : Transaction} {unit : RegisterUnit} {answer : Packet}
    (h : r.unit.serve (t.toRequest m r.run.session.config.host) = (unit, some answer))
    (failure : Option SessionError) :
    r.serve m id t failure =
      ({ r with unit, served := r.served ++ [.ofTransaction id t] } :
        AccessRun (Except SessionError Unit)).close id
          (failure.elim (checkResponse m t answer) .error) := by
  cases failure <;> simp only [AccessRun.serve, h, Option.elim]

/-- One more access is served for a call, whose progress it makes. -/
theorem Accounts.served (h : r.Accounts calls m address v) (hid : id < 2)
    {access : ServedAccess} (haccess : access.call = id) {unit : RegisterUnit}
    {result : Except SessionError Value}
    (hstored : unit.Stores address (Replay.ofServed calls v (r.served ++ [access])).word)
    (hprogress : Progress calls m address v id
      (close { r with unit, served := r.served ++ [access] } id result)) :
    Accounts calls m address v
      (close { r with unit, served := r.served ++ [access] } id result) where
  alone := h.alone
  known i hi := by
    rcases List.mem_append.mp hi with hi | hi
    · exact h.known i hi
    · rw [List.mem_singleton.mp hi, haccess]
      exact hid
  stored := hstored
  progress i hi := by
    by_cases heq : i = id
    · subst heq
      exact hprogress
    · have hne : access.call ≠ i := fun hcall => heq (hcall.symm.trans haccess)
      refine (h.progress i hi).mono ?_ ?_ fun P _ hstands =>
        stands_close_of_ne (Ne.symm heq) (hstands.congr rfl ⟨rfl, rfl⟩) result
      · show (r.served ++ [access]).filter (·.call = i) = _
        rw [List.filter_append, List.filter_cons_of_neg (by simpa using hne), List.filter_nil,
          List.append_nil]
      · show (Replay.ofServed calls v (r.served ++ [access])).seen i = _
        rw [Replay.ofServed_snoc, Replay.seen_step_of_ne _ _ hne]

theorem filter_snoc_self {own : List ServedAccess} {served : List ServedAccess}
    (hown : served.filter (·.call = id) = own) {access : ServedAccess}
    (haccess : access.call = id) :
    (served ++ [access]).filter (·.call = id) = own ++ [access] := by
  rw [List.filter_append, hown, List.filter_cons_of_pos (by simpa using haccess), List.filter_nil]

/-- An access is served. -/
theorem Accounts.serve (h : r.Accounts calls m address v) {t : Transaction}
    (ht : r.asking? m id = some t) (failure : Option SessionError) :
    (r.serve m id t failure).Accounts calls m address v := by
  have hid := h.lt_of_asking ht
  obtain ⟨next, hbit, hrunning, hresults, herror, hnext⟩ := (h.progress id hid).of_asking ht
  rcases hnext with ⟨hown, rfl, hok⟩ | ⟨hown, hchanged, rfl, hok⟩
  · obtain ⟨answer, hserve, hcheck⟩ := h.stored.serve_read m r.run.session.config.host
    have hread : (Replay.ofServed calls v (r.served ++ [read id])).seen id =
        (Replay.ofServed calls v r.served).word &&& Width.w16.mask := by
      rw [Replay.ofServed_snoc]
      exact if_pos rfl
    have hword : (Replay.ofServed calls v (r.served ++ [read id])).word =
        (Replay.ofServed calls v r.served).word := by
      rw [Replay.ofServed_snoc]
      rfl
    rw [serve_eq hserve, hcheck]
    refine h.served hid rfl (hword ▸ h.stored) ?_
    cases failure with
    | some e => exact .failed (stands_close hrunning hresults (herror e))
    | none =>
      refine .seen hbit (filter_snoc_self hown rfl) (stands_close hrunning hresults ?_)
      rw [← hread]
      exact hok _
  · obtain ⟨unit, answer, hserve, ⟨written, hcheck⟩, hstores⟩ :=
      h.stored.serve_write m r.run.session.config.host
        ((calls id).apply ((Replay.ofServed calls v r.served).seen id))
    have hseen : (Replay.ofServed calls v (r.served ++ [write id])).seen id =
        (Replay.ofServed calls v r.served).seen id := by
      rw [Replay.ofServed_snoc]
      rfl
    have hword : (Replay.ofServed calls v (r.served ++ [write id])).word =
        (calls id).apply ((Replay.ofServed calls v r.served).seen id) &&& Width.w16.mask := by
      rw [Replay.ofServed_snoc]
      rfl
    rw [serve_eq hserve, hcheck]
    refine h.served hid rfl (hword ▸ hstores) ?_
    cases failure with
    | some e => exact .failed (stands_close hrunning hresults (herror e))
    | none =>
      refine .written hbit (filter_snoc_self hown rfl) ?_
        (stands_close hrunning hresults (hok _))
      rw [← hseen] at hchanged
      exact hchanged

/-- An access has ended that nothing was served for. -/
theorem Accounts.fail (h : r.Accounts calls m address v) {t : Transaction}
    (ht : r.asking? m id = some t) (e : SessionError) :
    (r.close id (.error e)).Accounts calls m address v where
  alone := h.alone
  known := h.known
  stored := h.stored
  progress i hi := by
    by_cases heq : i = id
    · subst heq
      obtain ⟨next, -, hrunning, hresults, herror, -⟩ := (h.progress i hi).of_asking ht
      exact .failed (stands_close hrunning hresults (herror e))
    · exact (h.progress i hi).mono rfl rfl fun P _ hstands =>
        stands_close_of_ne (Ne.symm heq) hstands _

theorem Accounts.hear (h : r.Accounts calls m address v) (i : Nat) :
    (r.act m (.hear i)).Accounts calls m address v := by
  obtain ⟨hserved, hunit, halone⟩ : (r.act m (.hear i)).served = r.served ∧
      (r.act m (.hear i)).unit = r.unit ∧ ∀ id, r.run.running.find? id = none →
        (r.act m (.hear i)).run.running.find? id = none := by
    simp only [AccessRun.act]
    split
    · refine ⟨rfl, rfl, fun _ hnone => SessionRun.find?_act_eq_none hnone fun j o hstart => ?_⟩
      cases hstart
    · exact ⟨rfl, rfl, fun _ => id⟩
  exact {
    alone := fun id hid => halone id (h.alone id hid)
    known := hserved ▸ h.known
    stored := by
      rw [hserved, hunit]
      exact h.stored
    progress := fun id hid => (h.progress id hid).mono (by rw [hserved]) (by rw [hserved])
      fun P _ hstands => hstands.hear i }

/-- Every event keeps the accounts. -/
theorem Accounts.act (h : r.Accounts calls m address v)
    (event : AccessEvent (Except SessionError Unit)) :
    (r.act m event).Accounts calls m address v := by
  cases event with
  | other event hevent =>
    exact {
      alone := fun i hi => SessionRun.find?_act_eq_none (h.alone i hi) fun j o => by
        rintro rfl
        exact hevent
      known := h.known
      stored := h.stored
      progress := fun i hi => (h.progress i hi).mono rfl rfl fun P hP hstands =>
        hstands.other hP hevent }
  | serve i failure =>
    simp only [AccessRun.act]
    split
    · rename_i t ht
      exact h.serve ht failure
    · exact h
  | fail i e =>
    simp only [AccessRun.act]
    split
    · rename_i t ht
      exact h.fail ht e
    · exact h
  | hear i => exact h.hear i

theorem Accounts.after (h : r.Accounts calls m address v)
    (events : List (AccessEvent (Except SessionError Unit))) :
    (r.after m events).Accounts calls m address v := by
  induction events generalizing r with
  | nil => exact h
  | cons event events ih => exact ih (h.act event)

/-- A call that has succeeded has made all its accesses. -/
theorem Progress.completes (h : r.Progress calls m address v id)
    (hresult : r.run.results.find? id = some (.ok ())) :
    (calls id).bit < 16 ∧ Replay.Completes calls v r.served id := by
  have hsame_iff : (calls id).bit < 16 →
      ((calls id).apply ((Replay.ofServed calls v r.served).seen id) =
          (Replay.ofServed calls v r.served).seen id ↔
        ((Replay.ofServed calls v r.served).seen id).getLsbD (calls id).bit = (calls id).on) :=
    fun hbit => BitCall.apply_eq_self_iff (by omega) _
  unfold Replay.Completes
  cases h with
  | failed h => exact (h.of_result hresult).elim
  | fresh hbit hown h => exact (h.of_result hresult).elim
  | seen hbit hown h =>
    have hdone := h.of_result hresult
    unfold BitCall.AwaitsWrite at hdone
    split_ifs at hdone with hsame
    · exact ⟨hbit, by rw [if_pos ((hsame_iff hbit).mp hsame), hown]⟩
    · exact hdone.elim
  | written hbit hown hchanged h =>
    exact ⟨hbit, by rw [if_neg fun h => hchanged ((hsame_iff hbit).mpr h), hown]⟩

/-- Two calls that set bits of a register are started, with the numbers 0 and 1. -/
def setBits (s : Session) (u : RegisterUnit) (m : Address) (address : Word)
    (first second : BitCall) : AccessRun (Except SessionError Unit) where
  run := (({ session := s } : SessionRun (Except SessionError Unit)).park 0
    (Session.registerSetBit m address first.bit first.on).run).park 1
    (Session.registerSetBit m address second.bit second.on).run
  unit := u

theorem accounts_setBits (s : Session) {u : RegisterUnit} (hstored : u.Stores address v)
    (calls : Nat → BitCall) :
    (setBits s u m address (calls 0) (calls 1)).Accounts calls m address v := by
  refine ⟨fun id hid => ?_, by simp [setBits], hstored, fun id hid => ?_⟩
  · rw [setBits, SessionRun.find?_park, if_neg (by omega), SessionRun.find?_park,
      if_neg (by omega)]
    rfl
  · have hstands : ∀ P, (Session.registerSetBit m address (calls id).bit (calls id).on).run.Leads
        (fun _ => True) P → (setBits s u m address (calls 0) (calls 1)).Stands P id := by
      intro P hP
      refine Or.inl ⟨rfl, Or.inl ⟨_, ?_, rfl, hP⟩⟩
      obtain rfl | rfl : id = 0 ∨ id = 1 := by omega
      · rfl
      · rfl
    by_cases hbit : (calls id).bit < 16
    · exact .fresh hbit rfl (hstands _ (leads_registerSetBit hbit m address))
    · exact .failed (hstands _ (leads_registerSetBit_of_le (by omega) m address))

end AccessRun

/-- Two calls set different bits of a 16-bit register that belongs to the module's register file;
their accesses are served, or fail, in any order.  If both calls succeed, the other bits of the
register are as they were, and each call has written the register if its bit was not as requested.
Both bits are as requested unless each call has read the register before the other one wrote it;
then one of the two is lost. -/
theorem set_bits_kept_iff {s : Session} {u : RegisterUnit} {b : MapBackend} {m : Address}
    {address : Word} (hbackend : u.backend = .map b) (hbeyond : u.config.boundary ≤ address)
    (hcontains : b.contains address = true) (hsound : address ∉ b.faulty) {first second : BitCall}
    (hne : first.bit ≠ second.bit) {events : List (AccessEvent (Except SessionError Unit))}
    {r : AccessRun (Except SessionError Unit)}
    (hr : (AccessRun.setBits s u m address first second).after m events = r)
    (hfirst : r.run.results.find? 0 = some (.ok ()))
    (hsecond : r.run.results.find? 1 = some (.ok ())) :
    ∃ w, r.unit.content? address = some w ∧
      (∀ k < 16, k ≠ first.bit → k ≠ second.bit →
        w.getLsbD k = (b.value address).getLsbD k) ∧
      (ServedAccess.write 0 ∈ r.served ↔ (b.value address).getLsbD first.bit ≠ first.on) ∧
      (ServedAccess.write 1 ∈ r.served ↔ (b.value address).getLsbD second.bit ≠ second.on) ∧
      (w.getLsbD first.bit = first.on ∨ w.getLsbD second.bit = second.on) ∧
      (w.getLsbD first.bit = first.on ∧ w.getLsbD second.bit = second.on ↔
        ¬ Overlapping r.served) := by
  subst hr
  let calls : Nat → BitCall := fun id => if id = 0 then first else second
  have hstored : u.Stores address (b.value address) := by
    refine ⟨hbeyond, b, hbackend, if_pos ?_⟩
    simp [hcontains, hsound]
  have h : ((AccessRun.setBits s u m address first second).after m events).Accounts calls m address
      (b.value address) := (AccessRun.accounts_setBits s hstored calls).after events
  have hdone : ∀ id, id < 2 → (calls id).bit < 16 ∧ Replay.Completes calls (b.value address)
      ((AccessRun.setBits s u m address first second).after m events).served id := by
    intro id hid
    refine (h.progress id hid).completes ?_
    obtain rfl | rfl : id = 0 ∨ id = 1 := by omega
    · exact hfirst
    · exact hsecond
  have hcompletes := fun id hid => (hdone id hid).2
  obtain ⟨hseen0, hseen1, hothers, hone, hboth⟩ :=
    Replay.kept_iff_not_overlapping h.known (fun id hid => (hdone id hid).1) hne hcompletes
  have hwrite0 := (hcompletes 0 (by omega)).write_mem_iff
  have hwrite1 := (hcompletes 1 (by omega)).write_mem_iff
  rw [hseen0] at hwrite0
  rw [hseen1] at hwrite1
  exact ⟨_, h.stored.content, hothers, hwrite0, hwrite1, hone, hboth⟩

/-- Two calls set the two lowest bits of a register that holds zero.  Both read it before either
writes it, and the lowest bit is lost. -/
theorem set_bits_kept_iff_lost :
    let s : Session := { Session.initial (.ofSettings {}) with
      connected := true, directory := Table.empty.insert 1 (.unknown 1) }
    let b := MapBackend.ofRange 0x200 0x300
    let u := RegisterUnit.initial { identity := .standard .memoryAccess 0 } (.map b)
    let first : BitCall := { bit := 0, on := true }
    let second : BitCall := { bit := 1, on := true }
    let goOn : Nat → AccessEvent (Except SessionError Unit) := fun id => .other (.goOn id) trivial
    let r := (AccessRun.setBits s u 1 0x200 first second).after 1
      [goOn 0, goOn 1, .serve 0 none, .serve 1 none, .hear 0, .hear 1,
        goOn 0, goOn 0, goOn 1, goOn 1, .serve 0 none, .serve 1 none, .hear 0, .hear 1,
        goOn 0, goOn 0, goOn 1, goOn 1]
    u.config.boundary ≤ 0x200 ∧ b.contains 0x200 = true ∧ 0x200 ∉ b.faulty ∧
      r.run.results.find? 0 = some (.ok ()) ∧ r.run.results.find? 1 = some (.ok ()) ∧
      ∃ w, r.unit.content? 0x200 = some w ∧
        ¬ (w.getLsbD 0 = true ∧ w.getLsbD 1 = true) := by
  intro s b u first second goOn r
  have hbeyond : u.config.boundary ≤ 0x200 := by decide
  have hcontains : b.contains 0x200 = true := by decide
  have hsound : 0x200 ∉ b.faulty := by decide
  have hfirst : r.run.results.find? 0 = some (.ok ()) := by decide +kernel
  have hsecond : r.run.results.find? 1 = some (.ok ()) := by decide +kernel
  have hserved : r.served = [.read 0, .read 1, .write 0, .write 1] := by decide +kernel
  have hne : first.bit ≠ second.bit := by decide
  have hbackend : u.backend = .map b := rfl
  obtain ⟨w, hcontent, -, -, -, -, hboth⟩ :=
    set_bits_kept_iff hbackend hbeyond hcontains hsound hne (rfl : _ = r) hfirst hsecond
  refine ⟨hbeyond, hcontains, hsound, hfirst, hsecond, w, hcontent, fun h => ?_⟩
  refine hboth.mp h ?_
  rw [hserved]
  decide

end ProbeNet
