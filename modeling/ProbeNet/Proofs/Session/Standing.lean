import ProbeNet.Proofs.Session.Outcomes

/-!
# Where operations stand

Of an operation it often matters only what it will wait for next, and what it makes of what it
hears then.  Up to there it looks at the session and takes steps.

* `Operation.Leads` says of an operation that what it comes to next satisfies a condition,
  whatever it finds in the session on the way.  `SessionM.Looks` are the calls that do nothing
  but look.
* `SessionRun.Stands` says so of an operation in a run.  `Stands.act` carries it over everything
  that happens until the operation hears of something.
-/

namespace ProbeNet

open Register

namespace Operation

variable {α β : Type} {known known' : Session → Prop} {P Q : Operation α → Prop}

/-- The operation comes to something that the condition holds of.  Before that it takes steps, and
looks at sessions of which something is known. -/
def Leads (known : Session → Prop) (P : Operation α → Prop) : Operation α → Prop
  | look next => ∀ s, known s → (next s).Leads known P
  | step next => next.Leads known P
  | o => P o

/-- The operation has ended, or needs to hear of something before it can go on. -/
def IsHalted : Operation α → Prop
  | done _ | access _ _ _ | send _ _ _ | receive _ _ | ask _ _ => True
  | look _ | change _ _ | step _ | hangUp _ | pause _ _ | print _ _ => False

/-- The operation has failed. -/
def IsFailed {β : Type} : Operation (Except SessionError β) → Prop
  | done (.error _) => True
  | _ => False

theorem IsFailed.isHalted {β : Type} {o : Operation (Except SessionError β)} (h : o.IsFailed) :
    o.IsHalted := by
  cases o with
  | done a => trivial
  | _ => exact h.elim

theorem Leads.mono {o : Operation α} (h : o.Leads known P) (hknown : ∀ s, known' s → known s)
    (hPQ : ∀ q, P q → Q q) : o.Leads known' Q := by
  induction o with
  | look next ih => exact fun s hs => ih s (h s (hknown s hs))
  | step next ih => exact ih h
  | _ => exact hPQ _ h

/-- What follows a program starts from what the program comes to. -/
theorem leads_bind {R : Operation β → Prop} {o : Operation β} {f : β → Operation α}
    (h : o.Leads known R) (hR : ∀ q, R q → (q.bind f).Leads known P) :
    (o.bind f).Leads known P := by
  induction o with
  | look next ih => exact fun s hs => ih s (h s hs)
  | step next ih => exact ih h
  | _ => exact hR _ h

end Operation

namespace SessionM

variable {α β : Type} {known : Session → Prop} {P : Operation (Except SessionError α) → Prop}

/-- The call does nothing but look at the session. -/
def Looks (x : SessionM α) : Prop := x.run.Leads (fun _ => True) fun o => ∃ r, o = .done r

/-- What follows such a call is done only if the call succeeds. -/
theorem Looks.leads_bind {x : SessionM β} {f : β → SessionM α} (hx : x.Looks)
    (hok : ∀ b, (f b).run.Leads known P) (herror : ∀ e, P (.done (.error e))) :
    (x >>= f).run.Leads known P := by
  have hdone : x.run.Leads known fun o => ∃ r, o = .done r :=
    hx.mono (fun _ _ => trivial) fun _ => id
  refine Operation.leads_bind hdone ?_
  rintro _ ⟨r, rfl⟩
  cases r with
  | ok b => exact hok b
  | error e => exact herror e

theorem leads_state_bind {f : Session → SessionM α}
    (h : ∀ s, known s → (f s).run.Leads known P) : (SessionM.state >>= f).run.Leads known P := h

theorem looks_checkModule (m : Address) : (Session.checkModule m).Looks := by
  unfold Session.checkModule
  refine leads_state_bind fun s _ => ?_
  dsimp only
  split
  · split
    · exact ⟨_, rfl⟩
    · exact ⟨_, rfl⟩
  · exact ⟨_, rfl⟩

end SessionM

namespace SessionRun

variable {α : Type} {known : Session → Prop} {P : Operation α → Prop} {r : SessionRun α} {id : Nat}

/-! ## What others do -/

/-- The same operation runs under a number, and the same has ended under it. -/
structure SameAt (id : Nat) (r r' : SessionRun α) : Prop where
  running : r'.running.find? id = r.running.find? id
  results : r'.results.find? id = r.results.find? id

theorem SameAt.park {i : Nat} (hi : i ≠ id) {r' : SessionRun α} (h : SameAt id r r')
    (o : Operation α) : SameAt id r (r'.park i o) :=
  ⟨((r'.find?_park i id o).trans (if_neg hi)).trans h.running, h.results⟩

/-- An operation that goes on touches nothing that has another number. -/
theorem sameAt_goOn {i : Nat} (hi : i ≠ id) (r : SessionRun α) (o : Operation α) :
    SameAt id r (r.goOn i o) := by
  have hpark : ∀ (session : Session) (q : Operation α),
      SameAt id r ({ r with session }.park i q) := fun _ => SameAt.park hi ⟨rfl, rfl⟩
  cases o with
  | done a =>
    exact ⟨(Table.find?_erase ..).trans (if_neg hi), (Table.find?_insert ..).trans (if_neg hi)⟩
  | access m t next => exact ⟨rfl, rfl⟩
  | send e p next => exact ⟨rfl, rfl⟩
  | receive wait next => exact ⟨rfl, rfl⟩
  | ask f next => exact ⟨rfl, rfl⟩
  | _ => exact hpark _ _

theorem sameAt_hear {i : Nat} (hi : i ≠ id) (r : SessionRun α) (o : Operation α)
    (outcome : Outcome) : SameAt id r (r.hear i o outcome) := by
  have hpark : ∀ (ps : List Packet) (q : Operation α), SameAt id r ((r.hand ps).park i q) :=
    fun _ => SameAt.park hi ⟨rfl, rfl⟩
  have hstill : ∀ q : Operation α, SameAt id r (r.park i q) := SameAt.park hi ⟨rfl, rfl⟩
  unfold SessionRun.hear
  split
  · exact hstill _
  · exact hpark _ _
  · exact hstill _
  · exact hstill _
  · exact hstill _
  · exact ⟨rfl, rfl⟩

theorem sameAt_work (r : SessionRun α) (m : Address) (c : RegisterChannel) (w : ChannelWork) :
    SameAt id r (r.work m c w) := by
  cases w <;> exact ⟨rfl, rfl⟩

/-- What becomes of the operation with a number: it goes on, or hears of something, or is started;
nothing else touches it. -/
theorem act_cases_at (r : SessionRun α) (id : Nat) (event : SessionEvent α) :
    SameAt id r (r.act event) ∨
      (∃ o, event = .goOn id ∧ r.running.find? id = some o ∧ r.act event = r.goOn id o) ∨
      (∃ o outcome, event = .hear id outcome ∧ r.running.find? id = some o ∧
        r.act event = r.hear id o outcome) ∨ ∃ o, event = .start id o := by
  have hsame : SameAt id r r := ⟨rfl, rfl⟩
  cases event with
  | start i o =>
    by_cases hi : i = id
    · exact Or.inr (Or.inr (Or.inr ⟨o, by rw [hi]⟩))
    · exact Or.inl (.park hi hsame o)
  | goOn i =>
    simp only [SessionRun.act]
    split
    · rename_i o ho
      by_cases hi : i = id
      · subst hi
        exact Or.inr (Or.inl ⟨o, rfl, ho, rfl⟩)
      · exact Or.inl (sameAt_goOn hi r o)
    · exact Or.inl hsame
  | hear i outcome =>
    simp only [SessionRun.act]
    split
    · rename_i o ho
      by_cases hi : i = id
      · subst hi
        exact Or.inr (Or.inr (Or.inl ⟨o, outcome, rfl, ho, rfl⟩))
      · exact Or.inl (sameAt_hear hi r o outcome)
    · exact Or.inl hsame
  | drop i =>
    simp only [SessionRun.act]
    split
    · exact Or.inl ⟨rfl, rfl⟩
    · exact Or.inl hsame
  | submit i =>
    simp only [SessionRun.act]
    split
    · exact Or.inl ⟨rfl, rfl⟩
    · exact Or.inl hsame
  | work m w =>
    simp only [SessionRun.act]
    split
    · exact Or.inl (sameAt_work ..)
    · exact Or.inl ⟨rfl, rfl⟩
    · exact Or.inl hsame
  | arrive p => exact Or.inl ⟨rfl, rfl⟩
  | takeEvent =>
    simp only [SessionRun.act]
    split
    · exact Or.inl ⟨rfl, rfl⟩
    · exact Or.inl hsame
  | lose => exact Or.inl ⟨rfl, rfl⟩

/-- Nothing but a start makes an operation run. -/
theorem find?_act_eq_none (h : r.running.find? id = none) {event : SessionEvent α}
    (hstart : ∀ i o, event ≠ .start i o) : (r.act event).running.find? id = none := by
  rcases r.act_cases_at id event with hsame | ⟨o, -, ho, -⟩ | ⟨o, _, -, ho, -⟩ | ⟨o, rfl⟩
  · rw [hsame.running, h]
  · cases h.symm.trans ho
  · cases h.symm.trans ho
  · exact absurd rfl (hstart id o)

/-! ## Where an operation stands -/

/-- What the operation has come to leads to something that the condition holds of, or it has ended
so. -/
def Stands (known : Session → Prop) (P : Operation α → Prop) (id : Nat) (r : SessionRun α) : Prop :=
  (∃ o, r.running.find? id = some o ∧ r.results.find? id = none ∧ o.Leads known P) ∨
    ∃ a, r.running.find? id = none ∧ r.results.find? id = some a ∧ P (.done a)

/-- The condition holds of what an operation has ended with. -/
theorem Stands.of_result (h : r.Stands known P id) {a : α} (ha : r.results.find? id = some a) :
    P (.done a) := by
  rcases h with ⟨o, -, hresult, -⟩ | ⟨b, -, hresult, hb⟩
  · cases hresult.symm.trans ha
  · obtain rfl := Option.some.inj (hresult.symm.trans ha)
    exact hb

/-- An operation that runs leads there. -/
theorem Stands.of_running (h : r.Stands known P id) {o : Operation α}
    (ho : r.running.find? id = some o) : r.results.find? id = none ∧ o.Leads known P := by
  rcases h with ⟨q, hq, hresult, hleads⟩ | ⟨a, hnone, -⟩
  · obtain rfl := Option.some.inj (hq.symm.trans ho)
    exact ⟨hresult, hleads⟩
  · cases hnone.symm.trans ho

theorem Stands.congr (h : r.Stands known P id) {r' : SessionRun α} (hsame : SameAt id r r') :
    r'.Stands known P id := by
  unfold Stands
  rw [hsame.running, hsame.results]
  exact h

theorem stands_park {o : Operation α} (hresult : r.results.find? id = none)
    (ho : o.Leads known P) : (r.park id o).Stands known P id :=
  Or.inl ⟨o, find?_park_self .., hresult, ho⟩

/-- An operation that goes on comes nearer to what it leads to. -/
theorem Stands.goOn (h : r.Stands known P id) (hP : ∀ o, P o → o.IsHalted)
    (hknown : known r.session) {o : Operation α} (ho : r.running.find? id = some o) :
    (r.goOn id o).Stands known P id := by
  obtain ⟨hresult, hleads⟩ := h.of_running ho
  cases o with
  | look next => exact stands_park hresult (hleads r.session hknown)
  | step next => exact stands_park hresult hleads
  | done a =>
    exact Or.inr ⟨a, (Table.find?_erase ..).trans (if_pos rfl),
      (Table.find?_insert ..).trans (if_pos rfl), hleads⟩
  | access m t next => exact h
  | send e p next => exact h
  | receive wait next => exact h
  | ask f next => exact h
  | change f next => exact (hP _ hleads).elim
  | hangUp next => exact (hP _ hleads).elim
  | pause ms next => exact (hP _ hleads).elim
  | print text next => exact (hP _ hleads).elim

/-- As long as the operation hears of nothing, it stands where it stood. -/
theorem Stands.act (h : r.Stands known P id) (hP : ∀ o, P o → o.IsHalted)
    (hknown : known r.session) {event : SessionEvent α} (hstart : ∀ i o, event ≠ .start i o)
    (hhear : ∀ outcome o, event = .hear id outcome → r.running.find? id = some o → P o →
      r.hear id o outcome = r) : (r.act event).Stands known P id := by
  rcases r.act_cases_at id event with hsame | ⟨o, -, ho, hact⟩ | ⟨o, outcome, hevent, ho, hact⟩ |
    ⟨o, rfl⟩
  · exact h.congr hsame
  · rw [hact]
    exact h.goOn hP hknown ho
  · have hstill : r.hear id o outcome = r := by
      cases o with
      | look next => cases outcome <;> rfl
      | step next => cases outcome <;> rfl
      | _ => exact hhear outcome _ hevent ho (h.of_running ho).2
    rw [hact, hstill]
    exact h
  · exact absurd rfl (hstart id o)

theorem undisturbed_work (r : SessionRun α) (m : Address) (c : RegisterChannel) (w : ChannelWork) :
    r.session.Undisturbed (r.work m c w).session := by
  cases w with
  | opened => exact .refl _
  | _ => exact r.session.undisturbed_setChannel ..

/-- As long as the operations only look at the session, nobody sets it up anew. -/
theorem undisturbed_act (h : ∀ id o, r.running.find? id = some o →
      ∃ known P, (∀ q, P q → q.IsHalted) ∧ o.Leads known P) (event : SessionEvent α) :
    r.session.Undisturbed (r.act event).session := by
  have hrefl := Session.Undisturbed.refl r.session
  cases event with
  | start i o => exact hrefl
  | goOn i =>
    simp only [SessionRun.act]
    split
    · rename_i o ho
      obtain ⟨known, P, hP, hleads⟩ := h i o ho
      cases o with
      | change f next => exact (hP _ hleads).elim
      | _ => exact hrefl
    · exact hrefl
  | hear i outcome =>
    simp only [SessionRun.act]
    split
    · unfold SessionRun.hear
      split <;> exact hrefl
    · exact hrefl
  | drop i =>
    simp only [SessionRun.act]
    split
    · exact r.session.undisturbed_dropConnection
    · exact hrefl
  | submit i =>
    simp only [SessionRun.act]
    split
    · exact r.session.undisturbed_setChannel ..
    · exact hrefl
  | work m w =>
    simp only [SessionRun.act]
    split
    · exact undisturbed_work ..
    · exact r.session.undisturbed_setChannel ..
    · exact hrefl
  | arrive p => exact r.session.undisturbed_dispatch p
  | takeEvent =>
    simp only [SessionRun.act]
    split
    · rename_i htaken
      exact Session.undisturbed_takeEvent htaken
    · exact hrefl
  | lose => exact r.session.undisturbed_loseTransport

end SessionRun

end ProbeNet
