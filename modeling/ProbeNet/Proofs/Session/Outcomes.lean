import ProbeNet.Proofs.Session.Runs

/-!
# What operations come to

A target decides what the register accesses of an operation give.  Given what each
register reads as, `Operation.Ensures` says of an operation that whatever it ends with,
and whatever the session is like then, a condition holds of the two.  Between any two
steps of the operation others may act: register channels, the receiver, and whoever
takes events.  They leave the session `Undisturbed`.

The rules follow the ways in which operations are built, with `ensures_bind` for
sequences.  A call that does nothing but read registers `Tells` what it has read.
`SessionRun.Comes.after` carries a condition over to every run in which the operation
runs alone.
-/

namespace ProbeNet

open Register

/-- What each 16-bit register of each module reads as, or why it cannot be read. -/
abbrev Readings := Address → Word → Except SessionError Word

/-! ## What others do -/

namespace Session

variable {s s' s'' : Session}

/-- From `s` to `s'` nobody has set the session up anew, entered modules, changed the limit
or connected. -/
structure Undisturbed (s s' : Session) : Prop where
  config : s'.config = s.config
  directory : s'.directory = s.directory
  limit : s'.maxPacketLen = s.maxPacketLen
  connection : s.connection = none → s'.connection = none
  connected : s.connected = false → s'.connected = false

theorem Undisturbed.refl (s : Session) : s.Undisturbed s := ⟨rfl, rfl, rfl, id, id⟩

theorem Undisturbed.trans (h : s.Undisturbed s') (h' : s'.Undisturbed s'') : s.Undisturbed s'' :=
  ⟨h'.config.trans h.config, h'.directory.trans h.directory, h'.limit.trans h.limit,
    h'.connection ∘ h.connection, h'.connected ∘ h.connected⟩

theorem undisturbed_setChannel (s : Session) (m : Address) (c : RegisterChannel) :
    s.Undisturbed (s.setChannel m c) :=
  ⟨rfl, rfl, rfl, fun h => by rw [setChannel, h]; rfl, id⟩

theorem undisturbed_deliver (s : Session) (p : Packet) : s.Undisturbed (s.deliver p).1 := by
  obtain ⟨events, hdeliver⟩ := s.deliver_fst p
  rw [hdeliver]
  exact ⟨rfl, rfl, rfl, id, id⟩

theorem undisturbed_joinEvent (s : Session) (p : Packet) : s.Undisturbed (s.joinEvent p).1 := by
  unfold joinEvent
  split
  · exact .refl s
  · rename_i c hc
    have hjoined : ∀ reassembler,
        s.Undisturbed { s with connection := some { c with reassembler } } :=
      fun _ => ⟨rfl, rfl, rfl, fun hnone => absurd (hnone.symm.trans hc) nofun, id⟩
    simp only
    split
    · exact (hjoined _).trans (undisturbed_deliver ..)
    · exact hjoined _
    · exact hjoined _

theorem undisturbed_dispatch (s : Session) (p : Packet) : s.Undisturbed (s.dispatch p).1 := by
  unfold dispatch
  split
  · unfold routeResponse
    split
    · exact undisturbed_setChannel ..
    · exact .refl s
  · exact undisturbed_joinEvent s p
  · exact undisturbed_deliver s p
  · exact undisturbed_deliver s p

theorem undisturbed_takeEvent {p : Packet} (h : s.takeEvent = some (p, s')) :
    s.Undisturbed s' := by
  unfold takeEvent at h
  split at h
  · cases h
  · cases h
    exact ⟨rfl, rfl, rfl, id, id⟩

theorem undisturbed_loseTransport (s : Session) : s.Undisturbed s.loseTransport :=
  ⟨rfl, rfl, rfl, fun h => by rw [loseTransport, h]; rfl, fun _ => rfl⟩

theorem undisturbed_dropConnection (s : Session) : s.Undisturbed s.dropConnection :=
  ⟨rfl, rfl, rfl, fun _ => rfl, fun _ => rfl⟩

/-- A connection that is gone cannot be given up once more. -/
theorem dropConnection_eq_self (hconnection : s.connection = none)
    (hconnected : s.connected = false) : s.dropConnection = s := by
  cases s
  simp_all [dropConnection]

end Session

/-! ## Conditions on what an operation ends with -/

namespace Operation

variable {α β : Type} {reads : Readings} {post post' : α → Session → Prop} {o : Operation α}
  {s s' : Session}

/-- The condition holds of whatever the operation ends with when it starts from `s`, and
keeps holding while others act.  Register accesses give what is read; whatever else the
operation waits for may come out in any way. -/
def Ensures (reads : Readings) (post : α → Session → Prop) : Operation α → Session → Prop
  | done a, s => ∀ s', s.Undisturbed s' → post a s'
  | look next, s => ∀ s', s.Undisturbed s' → (next s').Ensures reads post s'
  | change f next, s => ∀ s', s.Undisturbed s' → next.Ensures reads post (f s')
  | step next, s => ∀ s', s.Undisturbed s' → next.Ensures reads post s'
  | hangUp next, s => ∀ s', s.Undisturbed s' → next.Ensures reads post s'.dropConnection
  | access m t next, s => ∀ s', s.Undisturbed s' →
      (next ((reads m t.address).map (·.setWidth 128))).Ensures reads post s'
  | send _ _ next, s => ∀ r s', s.Undisturbed s' → (next r).Ensures reads post s'
  | receive _ next, s => ∀ r s', s.Undisturbed s' → (next r).Ensures reads post s'
  | ask _ next, s => ∀ t s', s.Undisturbed s' → (next t).Ensures reads post s'
  | pause _ next, s => ∀ s', s.Undisturbed s' → next.Ensures reads post s'
  | print _ next, s => ∀ s', s.Undisturbed s' → next.Ensures reads post s'

/-- What others do in the meantime makes no difference. -/
theorem Ensures.undisturbed (h : o.Ensures reads post s) (hs : s.Undisturbed s') :
    o.Ensures reads post s' := by
  cases o with
  | done a => exact fun s'' hs' => h s'' (hs.trans hs')
  | look next => exact fun s'' hs' => h s'' (hs.trans hs')
  | change f next => exact fun s'' hs' => h s'' (hs.trans hs')
  | step next => exact fun s'' hs' => h s'' (hs.trans hs')
  | hangUp next => exact fun s'' hs' => h s'' (hs.trans hs')
  | access m t next => exact fun s'' hs' => h s'' (hs.trans hs')
  | send e p next => exact fun r s'' hs' => h r s'' (hs.trans hs')
  | receive wait next => exact fun r s'' hs' => h r s'' (hs.trans hs')
  | ask g next => exact fun t s'' hs' => h t s'' (hs.trans hs')
  | pause ms next => exact fun s'' hs' => h s'' (hs.trans hs')
  | print text next => exact fun s'' hs' => h s'' (hs.trans hs')

theorem Ensures.mono (h : o.Ensures reads post s) (hpost : ∀ a s, post a s → post' a s) :
    o.Ensures reads post' s := by
  induction o generalizing s with
  | done a => exact fun s' hs => hpost a s' (h s' hs)
  | look next ih => exact fun s' hs => ih s' (h s' hs)
  | change f next ih => exact fun s' hs => ih (h s' hs)
  | step next ih => exact fun s' hs => ih (h s' hs)
  | hangUp next ih => exact fun s' hs => ih (h s' hs)
  | access m t next ih => exact fun s' hs => ih _ (h s' hs)
  | send e p next ih => exact fun r s' hs => ih r (h r s' hs)
  | receive wait next ih => exact fun r s' hs => ih r (h r s' hs)
  | ask g next ih => exact fun t s' hs => ih t (h t s' hs)
  | pause ms next ih => exact fun s' hs => ih (h s' hs)
  | print text next ih => exact fun s' hs => ih (h s' hs)

/-- What follows a program starts from where the program has ended. -/
theorem ensures_bind {f : β → Operation α} {o : Operation β}
    (h : o.Ensures reads (fun b s => (f b).Ensures reads post s) s) :
    (o.bind f).Ensures reads post s := by
  induction o generalizing s with
  | done b => exact h s (.refl s)
  | look next ih => exact fun s' hs => ih s' (h s' hs)
  | change g next ih => exact fun s' hs => ih (h s' hs)
  | step next ih => exact fun s' hs => ih (h s' hs)
  | hangUp next ih => exact fun s' hs => ih (h s' hs)
  | access m t next ih => exact fun s' hs => ih _ (h s' hs)
  | send e p next ih => exact fun r s' hs => ih r (h r s' hs)
  | receive wait next ih => exact fun r s' hs => ih r (h r s' hs)
  | ask g next ih => exact fun t s' hs => ih t (h t s' hs)
  | pause ms next ih => exact fun s' hs => ih (h s' hs)
  | print text next ih => exact fun s' hs => ih (h s' hs)

end Operation

namespace SessionM

variable {α β : Type} {reads : Readings} {post : Except SessionError α → Session → Prop}
  {s : Session}

/-- What follows a call is done only if the call succeeds. -/
theorem ensures_bind {x : SessionM β} {f : β → SessionM α}
    (h : x.run.Ensures reads (fun r s => match r with
      | .ok b => (f b).run.Ensures reads post s
      | .error e => (throw e : SessionM α).run.Ensures reads post s) s) :
    (x >>= f).run.Ensures reads post s := by
  refine Operation.ensures_bind (h.mono fun r s hr => ?_)
  cases r with
  | ok b => exact hr
  | error e => exact hr

/-- What follows an operation that cannot fail starts from where the operation has ended. -/
theorem ensures_lift_bind {o : Operation β} {f : β → SessionM α}
    (h : o.Ensures reads (fun b s => (f b).run.Ensures reads post s) s) :
    (ExceptT.lift o >>= f).run.Ensures reads post s := by
  refine ensures_bind (Operation.ensures_bind (h.mono fun b s' hb => ?_))
  intro s'' hs
  exact hb.undisturbed hs

theorem ensures_takeStep_bind {f : Unit → SessionM α} (h : (f ()).run.Ensures reads post s) :
    (SessionM.takeStep >>= f).run.Ensures reads post s :=
  ensures_lift_bind fun _ hs _ hs' => h.undisturbed (hs.trans hs')

theorem ensures_state_bind {f : Session → SessionM α}
    (h : ∀ s', s.Undisturbed s' → (f s').run.Ensures reads post s') :
    (SessionM.state >>= f).run.Ensures reads post s :=
  ensures_lift_bind fun s' hs _ hs' => (h s' hs).undisturbed hs'

theorem ensures_modify_bind {g : Session → Session} {f : Unit → SessionM α}
    (h : ∀ s', s.Undisturbed s' → (f ()).run.Ensures reads post (g s')) :
    (SessionM.modify g >>= f).run.Ensures reads post s :=
  ensures_lift_bind fun s' hs _ hs' => (h s' hs).undisturbed hs'

/-! ## Calls that only read -/

/-- The call leaves the session alone, and its outcome is `r`. -/
def Tells (reads : Readings) (x : SessionM α) (r : Except SessionError α) : Prop :=
  ∀ s, x.run.Ensures reads (fun r' s' => r' = r ∧ s.Undisturbed s') s

theorem tells_pure (a : α) : Tells reads (pure a) (.ok a) := fun _ _ hs => ⟨rfl, hs⟩

theorem tells_access (m : Address) (t : Transaction) :
    Tells reads (SessionM.access m t) ((reads m t.address).map (·.setWidth 128)) :=
  fun _ _ hs _ hs' => ⟨rfl, hs.trans hs'⟩

/-- What follows a call that only reads finds the session as it was. -/
theorem Tells.ensures_bind {x : SessionM β} {r : Except SessionError β} {f : β → SessionM α}
    (hx : Tells reads x r) (hok : ∀ b, r = .ok b → (f b).run.Ensures reads post s)
    (herror : ∀ e, r = .error e → (throw e : SessionM α).run.Ensures reads post s) :
    (x >>= f).run.Ensures reads post s := by
  refine SessionM.ensures_bind ((hx s).mono ?_)
  rintro r' s' ⟨rfl, hs⟩
  cases r' with
  | ok b => exact (hok b rfl).undisturbed hs
  | error e => exact (herror e rfl).undisturbed hs

theorem Tells.bind {x : SessionM β} {r : Except SessionError β} {f : β → SessionM α}
    {g : β → Except SessionError α} (hx : Tells reads x r) (hf : ∀ b, Tells reads (f b) (g b)) :
    Tells reads (x >>= f) (r >>= g) := by
  intro s
  apply hx.ensures_bind
  · rintro b rfl
    exact hf b s
  · rintro e rfl s' hs
    exact ⟨rfl, hs⟩

/-- What follows the outcome of a call starts from where the call has ended. -/
theorem ensures_attempt_bind {x : SessionM β} {f : Except SessionError β → SessionM α}
    (h : x.run.Ensures reads (fun r s => (f r).run.Ensures reads post s) s) :
    (x.attempt >>= f).run.Ensures reads post s := ensures_lift_bind h

theorem Tells.attempt {x : SessionM α} {r : Except SessionError α} (hx : Tells reads x r) :
    Tells reads x.attempt (.ok r) := by
  intro s
  refine Operation.ensures_bind ((hx s).mono ?_)
  rintro r' s' ⟨rfl, hs⟩ s'' hs'
  exact ⟨rfl, hs.trans hs'⟩

end SessionM

/-! ## Runs -/

namespace SessionRun

variable {α : Type} {reads : Readings} {post : α → Session → Prop} {id : Nat} {r : SessionRun α}

/-- What may happen while an operation runs alone on a target.  Nobody starts another
one, every register access gives what is read, and the operation goes on from giving up
the connection when the connection is gone. -/
def Allows (reads : Readings) (r : SessionRun α) : SessionEvent α → Prop
  | .start _ _ => False
  | .goOn i =>
    match r.running.find? i with
    | some (.hangUp _) => r.session.connection = none ∧ r.session.connected = false
    | _ => True
  | .hear i outcome =>
    match r.running.find? i with
    | some (.access m t _) => outcome = .accessed ((reads m t.address).map (·.setWidth 128))
    | _ => True
  | .drop _ | .submit _ | .work _ _ | .arrive _ | .takeEvent | .lose => True

/-- All the events may happen, one after the other. -/
def AllowsAll (reads : Readings) : SessionRun α → List (SessionEvent α) → Prop
  | _, [] => True
  | r, event :: events => r.Allows reads event ∧ (r.act event).AllowsAll reads events

/-- The run in which the operation starts from `s`, with the number 0, and nothing else
runs. -/
def alone (s : Session) (o : Operation α) : SessionRun α :=
  ({ session := s } : SessionRun α).park 0 o

theorem find?_park_self (r : SessionRun α) (id : Nat) (o : Operation α) :
    (r.park id o).running.find? id = some o := by
  rw [find?_park, if_pos rfl]

/-- Started from `s`, the operation can end with `a` on a target with these readings,
and leave the session as `s'`. -/
def Ends (reads : Readings) (o : Operation α) (s : Session) (a : α) (s' : Session) : Prop :=
  ∃ events : List (SessionEvent α), (alone s o).AllowsAll reads events ∧
    ((alone s o).after events).results.find? 0 = some a ∧
      ((alone s o).after events).session = s'

/-- The operation with the number `id` is the only one, and the condition holds of what
it ends with. -/
structure Comes (reads : Readings) (post : α → Session → Prop) (id : Nat) (r : SessionRun α) :
    Prop where
  alone : ∀ i, i ≠ id → r.running.find? i = none
  running : ∀ o, r.running.find? id = some o →
    r.results.find? id = none ∧ o.Ensures reads post r.session
  ended : ∀ a, r.results.find? id = some a → ∀ s', r.session.Undisturbed s' → post a s'

/-- Others have acted. -/
theorem Comes.around (h : r.Comes reads post id) {session : Session}
    (hs : r.session.Undisturbed session) : Comes reads post id { r with session } where
  alone := h.alone
  running o ho := ⟨(h.running o ho).1, (h.running o ho).2.undisturbed hs⟩
  ended a ha s' hs' := h.ended a ha s' (hs.trans hs')

/-- The operation has come to the rest of its program. -/
theorem Comes.park (h : r.Comes reads post id) {session : Session} {o o' : Operation α}
    (ho : r.running.find? id = some o) (ho' : o'.Ensures reads post session) :
    Comes reads post id ({ r with session }.park id o') where
  alone i hi := by
    rw [find?_park, if_neg hi.symm]
    exact h.alone i hi
  running p hp := by
    rw [find?_park, if_pos rfl] at hp
    exact ⟨(h.running o ho).1, Option.some.inj hp ▸ ho'⟩
  ended a ha := by
    have hnone : r.results.find? id = some a := ha
    rw [(h.running o ho).1] at hnone
    cases hnone

/-- The operation has handed over packets. -/
theorem Comes.hand (h : r.Comes reads post id) (ps : List Packet) :
    (r.hand ps).Comes reads post id := ⟨h.alone, h.running, h.ended⟩

theorem Comes.done (h : r.Comes reads post id) {a : α} (ho : r.running.find? id = some (.done a)) :
    (r.goOn id (.done a)).Comes reads post id where
  alone i hi := by
    show (r.running.erase id).find? i = none
    rw [Table.find?_erase, if_neg hi.symm]
    exact h.alone i hi
  running o ho' := by
    have hnone : (r.running.erase id).find? id = some o := ho'
    rw [Table.find?_erase, if_pos rfl] at hnone
    cases hnone
  ended b hb := by
    have hresult : (r.results.insert id a).find? id = some b := hb
    rw [Table.find?_insert, if_pos rfl] at hresult
    cases hresult
    exact (h.running _ ho).2

theorem Comes.goOn (h : r.Comes reads post id) {o : Operation α}
    (ho : r.running.find? id = some o) (hallowed : r.Allows reads (.goOn id)) :
    (r.goOn id o).Comes reads post id := by
  have hnow := (h.running o ho).2
  have hrefl := Session.Undisturbed.refl r.session
  cases o with
  | done a => exact h.done ho
  | look next => exact h.park ho (hnow _ hrefl)
  | change f next => exact h.park ho (hnow _ hrefl)
  | step next => exact h.park ho (hnow _ hrefl)
  | pause ms next => exact h.park ho (hnow _ hrefl)
  | print text next => exact h.park ho (hnow _ hrefl)
  | hangUp next =>
    simp only [Allows, ho] at hallowed
    have hdropped := hnow _ hrefl
    rw [Session.dropConnection_eq_self hallowed.1 hallowed.2] at hdropped
    exact h.park ho fun s' hs => hdropped.undisturbed hs
  | access m t next => exact h
  | send e p next => exact h
  | receive wait next => exact h
  | ask g next => exact h

theorem Comes.hear (h : r.Comes reads post id) {o : Operation α} {outcome : Outcome}
    (ho : r.running.find? id = some o) (hallowed : r.Allows reads (.hear id outcome)) :
    (r.hear id o outcome).Comes reads post id := by
  have hnow := (h.running o ho).2
  unfold SessionRun.hear
  split
  · simp only [Allows, ho, Outcome.accessed.injEq] at hallowed
    subst hallowed
    exact h.park ho fun s' hs => hnow s' hs
  · exact (h.hand _).park ho fun s' hs => hnow _ s' hs
  · exact h.park ho fun s' hs => hnow _ s' hs
  · exact h.park ho fun s' hs => hnow _ s' hs
  · exact h.park ho fun s' hs => hnow _ s' hs
  · exact h

theorem Comes.work (h : r.Comes reads post id) (m : Address) (c : RegisterChannel)
    (w : ChannelWork) : (r.work m c w).Comes reads post id := by
  have hset := fun c => h.around (r.session.undisturbed_setChannel m c)
  cases w with
  | opened => exact h
  | take => exact hset _
  | send deadline => exact (hset _).hand _
  | refuse e => exact (hset _).hand _
  | conclude now => exact hset _

/-- The operation drops the connection that it gives up. -/
theorem Comes.drop (h : r.Comes reads post id) {next : Operation α}
    (ho : r.running.find? id = some (.hangUp next)) :
    Comes reads post id { r with session := r.session.dropConnection } where
  alone := h.alone
  running o ho' := by
    obtain rfl : Operation.hangUp next = o := Option.some.inj (ho.symm.trans ho')
    refine ⟨(h.running _ ho).1, fun s' hs => ?_⟩
    exact ((h.running _ ho).2 _ (.refl _)).undisturbed (hs.trans s'.undisturbed_dropConnection)
  ended a ha := by
    have hnone : r.results.find? id = some a := ha
    rw [(h.running _ ho).1] at hnone
    cases hnone

/-- Nobody but the operation goes on. -/
theorem Comes.eq_of_running (h : r.Comes reads post id) {i : Nat} {o : Operation α}
    (ho : r.running.find? i = some o) : i = id := by
  by_contra hi
  rw [h.alone i hi] at ho
  cases ho

theorem Comes.act (h : r.Comes reads post id) {event : SessionEvent α}
    (hallowed : r.Allows reads event) : (r.act event).Comes reads post id := by
  cases event with
  | start i o => exact hallowed.elim
  | goOn i =>
    simp only [SessionRun.act]
    split
    · rename_i o ho
      obtain rfl := h.eq_of_running ho
      exact h.goOn ho hallowed
    · exact h
  | hear i outcome =>
    simp only [SessionRun.act]
    split
    · rename_i o ho
      obtain rfl := h.eq_of_running ho
      exact h.hear ho hallowed
    · exact h
  | drop i =>
    simp only [SessionRun.act]
    split
    · rename_i next ho
      obtain rfl := h.eq_of_running ho
      exact h.drop ho
    · exact h
  | submit i =>
    simp only [SessionRun.act]
    split
    · exact h.around (r.session.undisturbed_setChannel ..)
    · exact h
  | work m w =>
    simp only [SessionRun.act]
    split
    · exact h.work ..
    · exact h.around (r.session.undisturbed_setChannel ..)
    · exact h
  | arrive p => exact h.around (r.session.undisturbed_dispatch p)
  | takeEvent =>
    simp only [SessionRun.act]
    split
    · rename_i htaken
      exact h.around (Session.undisturbed_takeEvent htaken)
    · exact h
  | lose => exact h.around r.session.undisturbed_loseTransport

theorem Comes.after (h : r.Comes reads post id) {events : List (SessionEvent α)}
    (hallowed : r.AllowsAll reads events) : (r.after events).Comes reads post id := by
  induction events generalizing r with
  | nil => exact h
  | cons event events ih => exact ih (h.act hallowed.1) hallowed.2

/-- A condition that an operation ensures holds of every end that the operation can
come to. -/
theorem Ends.ensured {o : Operation α} {s s' : Session} {a : α} (hends : Ends reads o s a s')
    (h : o.Ensures reads post s) : post a s' := by
  obtain ⟨events, hallowed, hresult, rfl⟩ := hends
  have hstart : Comes reads post 0 (alone s o) := by
    refine ⟨fun i hi => ?_, fun p hp => ⟨Table.find?_empty 0, ?_⟩, fun a ha => ?_⟩
    · exact (find?_park ..).trans (if_neg hi.symm)
    · rw [alone, find?_park_self] at hp
      exact Option.some.inj hp ▸ h
    · exact absurd (ha.symm.trans (Table.find?_empty 0)) nofun
  exact (hstart.after hallowed).ended a hresult _ (.refl _)

/-! ## Ends -/

/-- Some events that may happen lead to a result. -/
def CanEnd (reads : Readings) (id : Nat) (r : SessionRun α) : Prop :=
  ∃ events : List (SessionEvent α), r.AllowsAll reads events ∧
    ∃ a, (r.after events).results.find? id = some a

theorem CanEnd.cons {event : SessionEvent α} (hallowed : r.Allows reads event)
    (h : (r.act event).CanEnd reads id) : r.CanEnd reads id := by
  obtain ⟨events, hevents, hresult⟩ := h
  exact ⟨event :: events, ⟨hallowed, hevents⟩, hresult⟩

theorem CanEnd.goOn {o : Operation α} (ho : r.running.find? id = some o)
    (hallowed : r.Allows reads (.goOn id)) (h : (r.goOn id o).CanEnd reads id) :
    r.CanEnd reads id := by
  apply CanEnd.cons hallowed
  simp only [SessionRun.act, ho]
  exact h

theorem CanEnd.hear {o : Operation α} {outcome : Outcome} (ho : r.running.find? id = some o)
    (hallowed : r.Allows reads (.hear id outcome)) (h : (r.hear id o outcome).CanEnd reads id) :
    r.CanEnd reads id := by
  apply CanEnd.cons hallowed
  simp only [SessionRun.act, ho]
  exact h

/-- An operation that runs alone can always come to an end. -/
theorem canEnd {o : Operation α} (ho : r.running.find? id = some o) : r.CanEnd reads id := by
  -- On the program.  What it waits for comes, and it goes on after one more step.
  have hstep : ∀ (r : SessionRun α) (next : Operation α),
      (∀ r : SessionRun α, r.running.find? id = some next → r.CanEnd reads id) →
        (r.park id (.step next)).CanEnd reads id := by
    intro r next h
    have ho := r.find?_park_self id (.step next)
    exact CanEnd.goOn ho (by simp only [Allows, ho]) (h _ (find?_park_self ..))
  induction o generalizing r with
  | done a =>
    refine CanEnd.goOn ho (by simp only [Allows, ho]) ⟨[], trivial, a, ?_⟩
    show (r.results.insert id a).find? id = some a
    rw [Table.find?_insert, if_pos rfl]
  | look next ih => exact CanEnd.goOn ho (by simp only [Allows, ho]) (ih _ (find?_park_self ..))
  | change f next ih => exact CanEnd.goOn ho (by simp only [Allows, ho]) (ih (find?_park_self ..))
  | step next ih => exact CanEnd.goOn ho (by simp only [Allows, ho]) (ih (find?_park_self ..))
  | pause ms next ih => exact CanEnd.goOn ho (by simp only [Allows, ho]) (ih (find?_park_self ..))
  | print text next ih => exact CanEnd.goOn ho (by simp only [Allows, ho]) (ih (find?_park_self ..))
  | hangUp next ih =>
    have hdrop : r.act (.drop id) = { r with session := r.session.dropConnection } := by
      simp only [SessionRun.act, ho]
    have hdropped : (r.act (.drop id)).running.find? id = some (.hangUp next) := by
      rw [hdrop]
      exact ho
    have hgone : (r.act (.drop id)).Allows reads (.goOn id) := by
      simp only [Allows, hdropped]
      rw [hdrop]
      exact ⟨rfl, rfl⟩
    have hallowed : r.Allows reads (.drop id) := trivial
    exact CanEnd.cons hallowed (CanEnd.goOn hdropped hgone (hstep _ next fun _ => ih))
  | access m t next ih =>
    have hallowed : r.Allows reads
        (.hear id (.accessed ((reads m t.address).map (·.setWidth 128)))) := by
      simp only [Allows, ho]
    exact CanEnd.hear ho hallowed (hstep _ _ fun _ => ih _)
  | send e p next ih =>
    have hallowed : r.Allows reads (.hear id (.sent (.ok ()))) := by simp only [Allows, ho]
    refine CanEnd.hear ho hallowed ?_
    cases e with
    | first => exact hstep _ _ fun _ => ih _
    | second => exact hstep _ _ fun _ => ih _
  | receive wait next ih =>
    have hallowed : r.Allows reads (.hear id (.received none)) := by simp only [Allows, ho]
    exact CanEnd.hear ho hallowed (hstep _ _ fun _ => ih _)
  | ask g next ih =>
    have hallowed : r.Allows reads (.hear id (.told none)) := by simp only [Allows, ho]
    exact CanEnd.hear ho hallowed (hstep _ _ fun _ => ih _)

theorem exists_ends (reads : Readings) (o : Operation α) (s : Session) :
    ∃ a s', Ends reads o s a s' := by
  have hcan : (alone s o).CanEnd reads 0 := canEnd (find?_park_self ..)
  obtain ⟨events, hallowed, a, hresult⟩ := hcan
  exact ⟨a, _, events, hallowed, hresult, rfl⟩

end SessionRun

end ProbeNet
