import ProbeNet.Proofs.Session.Tracking

/-!
# Operations of an executive

An executive lets an operation go on until it has to wait.  `Explains.advance` says
that a run can follow: what the operation tries to get takes events of the run, and
everything else leaves the session alone.
-/

namespace ProbeNet

open Register

namespace Executive

variable {α : Type} {x y z : Executive α} {id : Nat} {o q : Operation α} {s t : Stage}

/-! ## What leaves the session alone -/

/-- How an operation waits is noticed by nobody. -/
theorem Still.park (h : x.Still y) : (x.park id o s).Still (y.park id o t) := by
  refine ⟨h.session, fun i => ?_, h.results, h.handed⟩
  show ((y.waiting.insert id _).find? i).map _ = ((x.waiting.insert id _).find? i).map _
  rw [Table.find?_insert, Table.find?_insert]
  split
  · rfl
  · exact h.waiting i

/-- An operation that waits goes on waiting. -/
theorem still_park {w : Waiting α} (h : x.waiting.find? id = some w) (s : Stage) :
    x.Still (x.park id w.operation s) := by
  refine ⟨rfl, fun i => ?_, rfl, fun _ hp => hp⟩
  show ((x.waiting.insert id _).find? i).map _ = _
  rw [Table.find?_insert]
  split
  · rename_i heq
    rw [← heq, h]
    rfl
  · rfl

theorem still_foldl {β : Type} {f : Executive α → β → Executive α}
    (hf : ∀ (x : Executive α) b, x.Still (f x b)) (bs : List β) (x : Executive α) :
    x.Still (bs.foldl f x) := by
  induction bs generalizing x with
  | nil => exact Still.refl x
  | cons b bs ih => exact (hf x b).trans (ih (f x b))

theorem still_ringHolder (x : Executive α) (bell : Nat → Bell) : x.Still (x.ringHolder bell) := by
  unfold ringHolder
  split <;> exact Still.of_eq rfl

theorem still_takeStep {b : Bool} (h : x.takeStep id = (y, b)) : x.Still y := by
  unfold takeStep at h
  split at h <;> (obtain ⟨rfl, -⟩ := Prod.mk.inj h; exact Still.of_eq rfl)

theorem still_startTime (x : Executive α) (id ms : Nat) (s : Stage) :
    x.Still (x.startTime id ms s) := by
  cases s <;> exact Still.of_eq rfl

theorem still_pause (x : Executive α) (id ms : Nat) (s : Stage) :
    x.Still (x.pause id ms s).1 := by
  unfold pause
  split
  · exact Still.of_eq rfl
  · split
    · exact Still.of_eq rfl
    · exact still_startTime ..

theorem still_awaitOutcome {β : Type} (x : Executive α) (id : Nat) :
    x.Still (x.awaitOutcome id (β := β)).1 := by
  unfold awaitOutcome
  split <;> exact Still.of_eq rfl

theorem still_holdEvents (x : Executive α) (id : Nat) : x.Still (x.holdEvents id).1 := by
  unfold holdEvents
  split
  · exact Still.refl x
  · simp only
    split <;> exact Still.of_eq rfl

theorem still_leaveEvents (x : Executive α) (id : Nat) : x.Still (x.leaveEvents id) := by
  unfold leaveEvents
  simp only
  split <;> exact Still.of_eq rfl

theorem still_awaitEvent (x : Executive α) (id : Nat) (wait : Option Nat) (before after : Stage) :
    x.Still (x.awaitEvent id wait before after).1 := by
  unfold awaitEvent
  split
  · exact Still.refl x
  · split
    · exact (still_leaveEvents _ id).after_eq rfl
    · exact still_startTime ..

theorem still_ask (x : Executive α) (id : Nat) (s : Stage) : x.Still (x.ask id s).1 := by
  unfold ask
  split
  · split
    · rename_i y htaken
      exact still_takeStep htaken
    · rename_i y htaken
      refine (still_takeStep htaken).trans ?_
      split
      · exact Still.refl y
      · exact (still_awaitOutcome _ id).after_eq rfl
  · exact still_awaitOutcome ..
  · exact still_awaitOutcome ..

theorem still_withdraw (x : Executive α) (id : Nat) : x.Still (x.withdraw id) := by
  unfold withdraw
  split
  · exact Still.refl x
  · rename_i w hw
    exact (still_park hw .underway).trans (Still.of_eq rfl)

theorem still_stopChannels (x : Executive α) (c : Connection) : x.Still (x.stopChannels c) := by
  unfold stopChannels
  refine (still_foldl still_withdraw x.linedCallers x).trans ?_
  refine (still_foldl ?_ _ _).after_eq rfl
  exact fun _ _ => Still.of_eq rfl

theorem still_takeLastStep (x : Executive α) (id : Nat) : x.Still (x.takeLastStep id).1 := by
  unfold takeLastStep
  split <;> exact still_takeStep ‹_›

end Executive

/-! ## What operations wait for -/

namespace SessionRun

open Executive

variable {α : Type} {r : SessionRun α} {x y : Executive α} {starts : Operation α → Prop}
  {id : Nat} {o : Operation α} {s t : Stage}

/-- An operation drops the connection that it gives up. -/
theorem Explains.drop {next : Operation α}
    (h : r.Explains starts (x.park id (.hangUp next) s)) :
    r.Explains starts
      (Executive.park { x with session := x.session.dropConnection } id (.hangUp next) s) := by
  refine h.session (.drop id) (fun _ _ heq => by cases heq) fun r' htracks => ?_
  simp only [act, htracks.find?_park]
  rw [htracks.session]
  rfl

/-- What is left to do when the connection has been dropped. -/
theorem still_leave (x : Executive α) (c : Connection) (id : Nat) :
    x.Still (let leaver := if c.receiving then some id else none
      let farewells := x.farewells ++ [({ callers := x.callers c, leaver } : Farewell)]
      let x := { x.stopChannels c with farewells }.wake .receiver
      if c.receiving then x.awaitOutcome id else x.takeLastStep id).1 := by
  refine (still_stopChannels x c).trans ?_
  simp only
  generalize x.stopChannels c = y
  split
  · exact (still_awaitOutcome _ id).after_eq rfl
  · exact (still_takeLastStep _ id).after_eq rfl

/-- The operation gives up the connection. -/
theorem Explains.hangUp {next : Operation α} {u : Stage}
    (h : r.Explains starts (x.park id (.hangUp next) s)) :
    r.Explains starts ((x.hangUp id u).1.park id (.hangUp next) t) := by
  cases u with
  | underway => exact h.still (still_awaitOutcome x id).park
  | lined => exact h.still (still_takeLastStep x id).park
  | fresh =>
    simp only [Executive.hangUp]
    split
    · rename_i y htaken
      exact h.still (still_takeStep htaken).park
    · rename_i y htaken
      have hstill : x.Still y := still_takeStep htaken
      have hdropped := (h.still (hstill.park (t := s))).drop
      generalize hz : ({ y with session := y.session.dropConnection } : Executive α) = z at hdropped
      have hrung := hdropped.still ((still_ringHolder z .loss).park (t := s))
      generalize z.ringHolder .loss = z at hrung
      split
      · exact hrung.still (Still.refl z).park
      · exact hrung.still (still_leave z _ id).park

theorem openChannel_park (x : Executive α) (m : Address) (id : Nat) (o : Operation α)
    (s : Stage) : (x.park id o s).openChannel m = (x.openChannel m).park id o s := by
  unfold Executive.openChannel
  cases h : x.session.channel? m with
  | none =>
    replace h : (x.park id o s).session.channel? m = none := h
    rw [h]
    rfl
  | some c =>
    replace h : (x.park id o s).session.channel? m = some c := h
    rw [h]

/-- The register channel of a module is opened if need be. -/
theorem Explains.openChannel (h : r.Explains starts x) (m : Address) :
    r.Explains starts (x.openChannel m) := by
  unfold Executive.openChannel
  split
  · exact h
  · rename_i hnone
    have hopened : r.Explains starts { x with session := x.session.setChannel m {} } := by
      refine h.session (.work m .opened) (fun _ _ heq => by cases heq) fun r' htracks => ?_
      simp only [act]
      rw [htracks.session, hnone]
    exact hopened.still (Still.of_eq rfl)

/-- The operation hands its call to the register channel when it has room. -/
theorem Explains.submit {m : Address} {request : Transaction}
    {next : Except SessionError Value → Operation α}
    (h : r.Explains starts (x.park id (.access m request next) s)) :
    r.Explains starts
      ((x.submit m { id, transaction := request }).1.park id (.access m request next) t) := by
  unfold Executive.submit
  split
  · exact h.still (Still.park (Still.of_eq rfl))
  · split
    · exact h.still (Still.park (Still.of_eq rfl))
    · simp only
      split
      · rename_i line _
        have hsubmitted : r.Explains starts (Executive.park
            { x with session := x.session.submit m { id, transaction := request } } id
              (.access m request next) s) := by
          refine h.session (.submit id) (fun _ _ heq => by cases heq) fun r' htracks => ?_
          simp only [act, htracks.find?_park]
          rw [htracks.session]
          rfl
        exact hsubmitted.still (Still.park ((still_awaitOutcome _ id).after_eq rfl))
      · exact h.still (Still.park (Still.of_eq rfl))

theorem Explains.access {m : Address} {request : Transaction}
    {next : Except SessionError Value → Operation α} {u : Stage}
    (h : r.Explains starts (x.park id (.access m request next) s)) :
    r.Explains starts
      ((x.access m { id, transaction := request } u).1.park id (.access m request next) t) := by
  cases u with
  | underway => exact h.still (still_awaitOutcome x id).park
  | lined => exact h.submit
  | fresh =>
    simp only [Executive.access]
    split
    · rename_i y htaken
      exact h.still (still_takeStep htaken).park
    · rename_i y htaken
      have hy := h.still ((still_takeStep htaken).park (t := s))
      split
      · exact hy.still (Still.refl y).park
      · have hopened := hy.openChannel m
        rw [openChannel_park] at hopened
        exact hopened.submit

/-- The operation takes an event out of the queue, or waits for one. -/
theorem Explains.receive {w : Option Nat} {u : Stage}
    (h : r.Explains starts (x.park id o s)) :
    r.Explains starts ((x.receive id w u).1.park id o t) := by
  unfold Executive.receive
  split
  · exact h.still (Still.park (Still.of_eq rfl))
  · have hheld := still_holdEvents x id
    split
    · rename_i y heq
      rw [heq] at hheld
      exact h.still (Still.park (hheld.trans (still_awaitEvent ..)))
    · rename_i y heq
      rw [heq] at hheld
      have hy := h.still (hheld.park (t := s))
      split
      · rename_i p session htaken
        have htaken' : y.session.takeEvent = some (p, session) := by
          split at htaken
          · cases htaken
          · exact htaken
        have hevent : r.Explains starts (Executive.park { y with session } id o s) := by
          refine hy.session .takeEvent (fun _ _ heq => by cases heq) fun r' htracks => ?_
          have hsession : r'.session = y.session := htracks.session
          simp only [act]
          rw [hsession, htaken']
        exact hevent.still (Still.park ((still_leaveEvents _ id).after_eq rfl))
      · have hstill : y.Still (if y.isSpent then y.giveWay (.operation id)
            else y.listenForEvents id) := by
          split <;> exact Still.of_eq rfl
        simp only
        generalize (if y.isSpent then y.giveWay (.operation id)
            else y.listenForEvents id) = z at hstill ⊢
        split
        · exact hy.still (Still.park (hstill.trans (still_awaitEvent ..)))
        · exact hy.still (Still.park (hstill.trans (still_leaveEvents _ id)))

/-! ## Going on -/

/-- An operation ends. -/
theorem Explains.finish {a : α} (h : r.Explains starts (x.park id (.done a) s)) :
    r.Explains starts (x.finish id a) := by
  refine h.snoc (.goOn id) (fun _ _ heq => by cases heq) fun r' htracks => ?_
  simp only [act, htracks.find?_park]
  refine ⟨htracks.session, fun i => ?_, ?_, htracks.handed⟩
  · have hbefore := htracks.running i
    replace hbefore : _ = ((x.waiting.insert id _).find? i).map _ := hbefore
    show (r'.running.erase id).find? i = ((x.waiting.erase id).find? i).map _
    rw [Table.find?_insert] at hbefore
    rw [Table.find?_erase, Table.find?_erase]
    split
    · rfl
    · rename_i hne
      rwa [if_neg hne] at hbefore
  · show r'.results.insert id a = x.results.insert id a
    rw [htracks.results]
    rfl

/-- An operation that an executive lets go on does what the run can do. -/
theorem Explains.advance (o : Operation α) (s : Stage) (x : Executive α)
    (h : r.Explains starts (x.park id o s)) :
    r.Explains starts (advance id o s x) := by
  induction o generalizing s x with
  | done a => exact h.finish
  | look next ih =>
    refine ih x.session .fresh x (h.goOn x.session fun r' hsession => ?_)
    show r'.park id (next r'.session) = _
    rw [hsession, ← hsession]
  | change f next ih =>
    have hchanged := h.goOn (q := next) (t := .fresh) (f x.session)
      fun r' hsession => by rw [← hsession]; rfl
    refine ih .fresh _ (hchanged.still (Still.park ?_))
    unfold changeSession
    simp only
    split <;> exact Still.of_eq rfl
  | print text next ih =>
    have hprinted := h.goOn_alone (t := .fresh) fun _ => rfl
    exact ih .fresh _ (hprinted.still (Still.park (Still.of_eq rfl)))
  | step next ih =>
    unfold Executive.advance
    split
    · rename_i y htaken
      have hstep := h.goOn_alone (t := .fresh) fun _ => rfl
      exact ih .fresh y (hstep.still (still_takeStep htaken).park)
    · rename_i y htaken
      exact h.still (still_takeStep htaken).park
  | hangUp next ih =>
    have hy := h.hangUp (u := s) (t := .fresh)
    unfold Executive.advance
    split
    · rename_i y heq
      rw [heq] at hy
      have hstep := hy.goOn_alone (q := .step next) (t := .fresh) fun _ => rfl
      exact ih .fresh y (hstep.goOn_alone fun _ => rfl)
    · rename_i y t heq
      rw [heq] at hy
      exact hy.still (Still.refl y).park
  | access m request next ih =>
    have hy := h.access (u := s) (t := .fresh)
    unfold Executive.advance
    split
    · rename_i y v heq
      rw [heq] at hy
      exact ih v .fresh y (hy.heard (.accessed v) fun _ => rfl)
    · rename_i y t heq
      rw [heq] at hy
      exact hy.still (Still.refl y).park
  | send e p next ih =>
    have hsent : ∀ (y : Executive α) (attempt : Attempt Unit) (v : Except TransportError Unit),
        x.put e p (.operation id) = (y, attempt) →
          r.Explains starts (y.park id (next v) .fresh) := by
      intro y attempt v hput
      cases e with
      | first => exact (h.sent v).still ((still_put x hput).2.park (s := .fresh))
      | second =>
        have hy := h.still (((still_put x hput).1 (Or.inl rfl)).park (t := .fresh))
        exact hy.heard (.sent v) fun _ => rfl
    unfold Executive.advance
    split
    · rename_i y heq
      exact ih (.ok ()) .fresh y (hsent y _ _ heq)
    · rename_i y error heq
      exact ih (.error error) .fresh y (hsent y _ _ heq)
    · rename_i y heq
      exact h.still ((still_put x heq).1 (Or.inr (by simp))).park
  | receive wait next ih =>
    have hy := h.receive (w := wait) (u := s) (t := .fresh)
    unfold Executive.advance
    split
    · rename_i y v heq
      rw [heq] at hy
      exact ih v .fresh y (hy.heard (.received v) fun _ => rfl)
    · rename_i y t heq
      rw [heq] at hy
      exact hy.still (Still.refl y).park
  | ask g next ih =>
    have hy := h.still ((still_ask x id s).park (t := .fresh))
    unfold Executive.advance
    split
    · rename_i y t heq
      rw [heq] at hy
      exact ih t .fresh y (hy.heard (.told t) fun _ => rfl)
    · rename_i y t heq
      rw [heq] at hy
      exact hy.still (Still.refl y).park
  | pause ms next ih =>
    have hy := h.still ((still_pause x id ms s).park (t := .fresh))
    unfold Executive.advance
    split
    · rename_i y heq
      rw [heq] at hy
      exact ih .fresh y (hy.goOn_alone fun _ => rfl)
    · rename_i y t heq
      rw [heq] at hy
      exact hy.still (Still.refl y).park

theorem Explains.advanceWaiting (h : r.Explains starts x) (id : Nat) :
    r.Explains starts (x.advanceWaiting id) := by
  unfold Executive.advanceWaiting
  split
  · exact h
  · rename_i w hw
    exact Explains.advance w.operation w.stage x (h.still (still_park hw w.stage))

end SessionRun

end ProbeNet
