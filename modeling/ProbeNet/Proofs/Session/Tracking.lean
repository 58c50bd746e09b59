import ProbeNet.Proofs.Session.Runs
import ProbeNet.Proofs.Session.Turns

/-!
# Runs that track an executive

An executive decides who goes on when, and brings its own target and transport.  What
it does to the session and the operations are events of a run: `Tracks` says that a run
has come to where the executive is, and `Explains` that some further events lead there.
Most of what an executive does is not noticed by the session (`Still`).
-/

namespace ProbeNet

open Register

namespace Executive

variable {α : Type} {x y z : Executive α}

/-! ## What nobody notices -/

/-- From `x` to `y` nothing happens that the session or its operations notice.  Packets
may leave the transport, and be received by the target. -/
structure Still (x y : Executive α) : Prop where
  session : y.session = x.session
  waiting : ∀ id, (y.waiting.find? id).map Waiting.operation =
    (x.waiting.find? id).map Waiting.operation
  results : y.results = x.results
  handed : ∀ p, p ∈ y.transport.second.queue ∨ p ∈ y.received →
    p ∈ x.transport.second.queue ∨ p ∈ x.received

theorem Still.trans (h : x.Still y) (h' : y.Still z) : x.Still z :=
  ⟨h'.session.trans h.session, fun id => (h'.waiting id).trans (h.waiting id),
    h'.results.trans h.results, fun p hp => h.handed p (h'.handed p hp)⟩

/-- All that the session and its operations notice of an executive. -/
def noticed (x : Executive α) :
    Session × Table Nat (Waiting α) × Table Nat α × List Packet × List Packet :=
  (x.session, x.waiting, x.results, x.transport.second.queue, x.received)

/-- Most of what an executive does concerns its agenda and its lines only. -/
theorem Still.of_eq (h : y.noticed = x.noticed) : x.Still y := by
  simp only [noticed, Prod.mk.injEq] at h
  obtain ⟨hsession, hwaiting, hresults, hqueue, hreceived⟩ := h
  exact ⟨hsession, fun id => by rw [hwaiting], hresults, fun p hp => by
    rwa [hqueue, hreceived] at hp⟩

theorem Still.refl (x : Executive α) : x.Still x := Still.of_eq rfl

theorem Still.after_eq (h : y.Still z) (heq : y.noticed = x.noticed) : x.Still z :=
  (Still.of_eq heq).trans h

theorem still_plan (x : Executive α) (f : Agenda → Agenda) : x.Still (x.plan f) :=
  Still.of_eq rfl

theorem still_setSenders (x : Executive α) (l : Line Task) (e : End) :
    x.Still (x.setSenders l e) := by
  cases e <;> exact Still.of_eq rfl

theorem still_makeRoom (x : Executive α) (e : End) : x.Still (x.makeRoom e) := by
  cases e <;> exact Still.of_eq rfl

/-- What is taken at the end of the target was handed over. -/
theorem still_receive (x : Executive α) {transport : ChannelPair} {e : End} {p : Packet}
    (h : x.transport.receive e = (transport, .done p)) :
    x.Still { x with transport } ∧ (e = .second → p ∈ x.transport.second.queue) := by
  unfold ChannelPair.receive at h
  simp only at h
  split at h
  · rename_i q rest hqueue
    obtain ⟨rfl, hp⟩ := Prod.mk.inj h
    obtain rfl := Attempt.done.inj hp
    cases e with
    | first => exact ⟨(Still.of_eq rfl), fun he => by cases he⟩
    | second =>
      replace hqueue : x.transport.second.queue = q :: rest := hqueue
      refine ⟨⟨rfl, fun _ => rfl, rfl, fun p hp => hp.imp_left fun hp => ?_⟩, fun _ => ?_⟩
      · rw [hqueue]
        exact List.mem_cons_of_mem q hp
      · rw [hqueue]
        exact List.mem_cons_self
  · split at h <;> cases h

theorem still_take (x : Executive α) {e : End} {who : Task} {attempt : Attempt Packet}
    (h : x.take e who = (y, attempt)) : x.Still y ∧
      ∀ p, attempt = .done p → e = .second → p ∈ x.transport.second.queue := by
  have hnothing : x.Still y → (∀ p, attempt ≠ .done p) → x.Still y ∧
      ∀ p, attempt = .done p → e = .second → p ∈ x.transport.second.queue :=
    fun hy hne => ⟨hy, fun p hp => absurd hp (hne p)⟩
  unfold take at h
  split at h
  · obtain ⟨rfl, rfl⟩ := Prod.mk.inj h
    exact hnothing (Still.of_eq rfl) (by simp)
  · have hheld : x.Still (if e ∈ x.receiving then x else
        { x with receiving := e :: x.receiving }.spend) := by
      split <;> exact Still.of_eq rfl
    have htransport : (if e ∈ x.receiving then x else
        { x with receiving := e :: x.receiving }.spend).transport = x.transport := by
      split <;> rfl
    simp only at h
    generalize (if e ∈ x.receiving then x else
        { x with receiving := e :: x.receiving }.spend) = z at hheld htransport h
    split at h
    · obtain ⟨rfl, rfl⟩ := Prod.mk.inj h
      exact hnothing (hheld.trans (Still.of_eq rfl)) (by simp)
    · split at h
      · rename_i transport p hreceive
        obtain ⟨rfl, rfl⟩ := Prod.mk.inj h
        obtain ⟨hstill, hmem⟩ := z.still_receive hreceive
        refine ⟨hheld.trans (hstill.trans ((still_makeRoom _ e).after_eq rfl)), ?_⟩
        intro q hq he
        rw [← Attempt.done.inj hq, ← htransport]
        exact hmem he
      · obtain ⟨rfl, rfl⟩ := Prod.mk.inj h
        exact hnothing (hheld.trans (Still.of_eq rfl)) (by simp)
      · obtain ⟨rfl, rfl⟩ := Prod.mk.inj h
        exact hnothing (hheld.trans (Still.of_eq rfl)) (by simp)

/-- The executive with a packet among those that the target has received. -/
def record (x : Executive α) (p : Packet) : Executive α := { x with received := p :: x.received }

/-- The transport takes a packet or stays as it is. -/
theorem still_send (x : Executive α) {transport : ChannelPair} {e : End} {p : Packet}
    {attempt : Attempt Unit} (h : x.transport.send e p = (transport, attempt)) :
    (e = .second ∨ attempt ≠ .done () → x.Still { x with transport }) ∧
      (x.record p).Still { x with transport } := by
  unfold ChannelPair.send at h
  simp only at h
  split at h
  · obtain ⟨rfl, -⟩ := Prod.mk.inj h
    exact ⟨fun _ => Still.refl x, rfl, fun _ => rfl, rfl,
      fun q hq => hq.imp_right (List.mem_cons_of_mem p)⟩
  · split at h
    · obtain ⟨rfl, rfl⟩ := Prod.mk.inj h
      cases e with
      | first =>
        refine ⟨fun he => by simp at he, rfl, fun _ => rfl, rfl, fun q hq => ?_⟩
        replace hq : q ∈ x.transport.second.queue ++ [p] ∨ q ∈ x.received := hq
        show q ∈ x.transport.second.queue ∨ q ∈ p :: x.received
        rw [List.mem_append, List.mem_singleton] at hq
        rw [List.mem_cons]
        tauto
      | second =>
        exact ⟨fun _ => Still.of_eq rfl, rfl, fun _ => rfl, rfl,
          fun q hq => hq.imp_right (List.mem_cons_of_mem p)⟩
    · obtain ⟨rfl, -⟩ := Prod.mk.inj h
      exact ⟨fun _ => Still.refl x, rfl, fun _ => rfl, rfl,
        fun q hq => hq.imp_right (List.mem_cons_of_mem p)⟩

theorem still_handed (x : Executive α) (p : Packet) :
    (x.record p).Still x :=
  ⟨rfl, fun _ => rfl, rfl, fun _ hq => hq.imp_right (List.mem_cons_of_mem p)⟩

/-- At the end of the host a packet is handed over that the transport takes. -/
theorem still_put (x : Executive α) {e : End} {p : Packet} {who : Task} {attempt : Attempt Unit}
    (h : x.put e p who = (y, attempt)) :
    (e = .second ∨ attempt ≠ .done () → x.Still y) ∧
      (x.record p).Still y := by
  have hstill : x.Still y → (e = .second ∨ attempt ≠ .done () → x.Still y) ∧
      (x.record p).Still y :=
    fun hy => ⟨fun _ => hy, (x.still_handed p).trans hy⟩
  unfold put at h
  split at h
  · obtain ⟨rfl, -⟩ := Prod.mk.inj h
    exact hstill (Still.of_eq rfl)
  · simp only at h
    split at h
    · obtain ⟨rfl, -⟩ := Prod.mk.inj h
      exact hstill (Still.of_eq rfl)
    · rename_i transport attempt' _ hsend
      obtain ⟨hquiet, hhanded⟩ := x.still_send hsend
      split at h
      · rename_i line hplace
        obtain ⟨rfl, rfl⟩ := Prod.mk.inj h
        have hline : { x with transport }.Still
            (({ x with transport }.setSenders line e).spend.ring (.packets e.other)) :=
          (still_setSenders _ line e).trans (Still.of_eq rfl)
        exact ⟨fun he => (hquiet (Or.inl (by simpa using he))).trans hline, hhanded.trans hline⟩
      · obtain ⟨rfl, -⟩ := Prod.mk.inj h
        exact hstill (still_setSenders ..)

end Executive

/-! ## Runs that track an executive -/

namespace SessionRun

variable {α : Type} {r r' : SessionRun α} {x y : Executive α}

/-- The run has come to where the executive is. -/
structure Tracks (r : SessionRun α) (x : Executive α) : Prop where
  session : r.session = x.session
  running : ∀ id, r.running.find? id = (x.waiting.find? id).map Waiting.operation
  results : r.results = x.results
  handed : ∀ p, p ∈ x.transport.second.queue ∨ p ∈ x.received → p ∈ r.handed

theorem Tracks.still (h : r.Tracks x) (hstill : x.Still y) : r.Tracks y :=
  ⟨h.session.trans hstill.session.symm, fun id => (h.running id).trans (hstill.waiting id).symm,
    h.results.trans hstill.results.symm, fun p hp => h.handed p (hstill.handed p hp)⟩

theorem Tracks.withSession (h : r.Tracks x) (session : Session) :
    { r with session }.Tracks { x with session } :=
  ⟨rfl, h.running, h.results, h.handed⟩

/-- A packet has been handed over, and the target has received it. -/
theorem Tracks.hand (h : r.Tracks x) (p : Packet) : (r.hand [p]).Tracks (x.record p) := by
  refine ⟨h.session, h.running, h.results, fun q hq => ?_⟩
  show q ∈ r.handed ++ [p]
  replace hq : q ∈ x.transport.second.queue ∨ q ∈ p :: x.received := hq
  rw [List.mem_append, List.mem_singleton]
  rw [List.mem_cons] at hq
  rcases hq with hq | hq | hq
  · exact Or.inl (h.handed q (Or.inl hq))
  · exact Or.inr hq
  · exact Or.inl (h.handed q (Or.inr hq))

/-- Events that start only certain operations lead from the run to where the executive
is. -/
def Explains (starts : Operation α → Prop) (r : SessionRun α) (x : Executive α) : Prop :=
  ∃ events, (∀ id o, .start id o ∈ events → starts o) ∧ (r.after events).Tracks x

variable {starts : Operation α → Prop}

theorem Tracks.explains (h : r.Tracks x) : r.Explains starts x := ⟨[], by simp, h⟩

theorem Explains.still (h : r.Explains starts x) (hstill : x.Still y) : r.Explains starts y := by
  obtain ⟨events, hstarts, htracks⟩ := h
  exact ⟨events, hstarts, htracks.still hstill⟩

/-- One more event. -/
theorem Explains.snoc (h : r.Explains starts x) (event : SessionEvent α)
    (hevent : ∀ id o, event = .start id o → starts o)
    (hact : ∀ r' : SessionRun α, r'.Tracks x → (r'.act event).Tracks y) : r.Explains starts y := by
  obtain ⟨events, hstarts, htracks⟩ := h
  refine ⟨events ++ [event], fun id o hmem => ?_, ?_⟩
  · rcases List.mem_append.mp hmem with hmem | hmem
    · exact hstarts id o hmem
    · exact hevent id o (List.mem_singleton.mp hmem).symm
  · rw [after_append]
    exact hact _ htracks

/-- Something happens to the session. -/
theorem Explains.session (h : r.Explains starts x) (event : SessionEvent α)
    (hevent : ∀ id o, event ≠ .start id o) {session : Session}
    (hact : ∀ r' : SessionRun α, r'.Tracks x → r'.act event = { r' with session }) :
    r.Explains starts { x with session } := by
  refine h.snoc event (fun id o heq => absurd heq (hevent id o)) fun r' htracks => ?_
  rw [hact r' htracks]
  exact htracks.withSession session

/-! ## Operations -/

variable {id : Nat} {o q : Operation α} {s t : Stage}

theorem Tracks.find?_park (h : r.Tracks (x.park id o s)) : r.running.find? id = some o := by
  rw [h.running]
  show ((x.waiting.insert id _).find? id).map _ = _
  rw [Table.find?_insert, if_pos rfl]
  rfl

/-- An operation comes to the rest of its program, in the run and in the executive. -/
theorem Tracks.park (h : r.Tracks (x.park id o s)) :
    (r.park id q).Tracks (x.park id q t) := by
  refine ⟨h.session, fun i => ?_, h.results, h.handed⟩
  have hbefore := h.running i
  show _ = ((x.waiting.insert id _).find? i).map _
  replace hbefore : _ = ((x.waiting.insert id _).find? i).map _ := hbefore
  rw [Table.find?_insert] at hbefore ⊢
  rw [SessionRun.find?_park]
  split
  · rfl
  · rename_i hne
    rwa [if_neg hne] at hbefore

/-- An operation goes on that needs to hear of nothing. -/
theorem Explains.goOn (h : r.Explains starts (x.park id o s)) (session : Session)
    (hgo : ∀ r' : SessionRun α, r'.session = x.session →
      r'.goOn id o = { r' with session }.park id q) :
    r.Explains starts ({ x with session }.park id q t) := by
  refine h.snoc (.goOn id) (fun _ _ heq => by cases heq) fun r' htracks => ?_
  simp only [act, htracks.find?_park]
  rw [hgo r' htracks.session]
  exact Tracks.park (s := s) (htracks.withSession session)

/-- An operation goes on that needs nothing at all. -/
theorem Explains.goOn_alone (h : r.Explains starts (x.park id o s))
    (hgo : ∀ r' : SessionRun α, r'.goOn id o = r'.park id q) :
    r.Explains starts (x.park id q t) :=
  h.goOn x.session fun r' hsession => by
    rw [hgo r', ← hsession]

/-- An operation hears what it waits for. -/
theorem Explains.hear (h : r.Explains starts (x.park id o s)) (outcome : Outcome)
    (hhear : ∀ r' : SessionRun α, r'.hear id o outcome = r'.park id q) :
    r.Explains starts (x.park id q t) := by
  refine h.snoc (.hear id outcome) (fun _ _ heq => by cases heq) fun r' htracks => ?_
  simp only [act, htracks.find?_park]
  rw [hhear r']
  exact htracks.park

/-- An operation hears what it waits for, and goes on. -/
theorem Explains.heard (h : r.Explains starts (x.park id o s)) (outcome : Outcome)
    (hhear : ∀ r' : SessionRun α, r'.hear id o outcome = r'.park id (.step q)) :
    r.Explains starts (x.park id q t) :=
  (h.hear (t := .fresh) outcome hhear).goOn_alone fun _ => rfl

/-- The transport takes or refuses the packet of an operation. -/
theorem Explains.sent {p : Packet} {next : Except TransportError Unit → Operation α}
    (h : r.Explains starts (x.park id (.send .first p next) s))
    (v : Except TransportError Unit) :
    r.Explains starts ((x.record p).park id (next v) t) := by
  have hheard : r.Explains starts
      ((x.record p).park id (.step (next v)) .fresh) := by
    refine h.snoc (.hear id (.sent v)) (fun _ _ heq => by cases heq) fun r' htracks => ?_
    simp only [act, htracks.find?_park]
    exact Tracks.park (s := s) (htracks.hand p)
  exact hheard.goOn_alone fun _ => rfl

end SessionRun

end ProbeNet
