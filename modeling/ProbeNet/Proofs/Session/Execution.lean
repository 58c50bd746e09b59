import ProbeNet.Proofs.Session.Operations
import ProbeNet.Session.Executive

/-!
# Executions are runs

Whatever an executive does, a run of its session can follow: everybody's turn is a
series of events, and so is what becomes of operations that are run together
(`Explains.runAll`).  So what holds of all runs of a session holds of what an
executive does to it, with any target.
-/

namespace ProbeNet

open Register

namespace Executive

variable {α : Type} {x y : Executive α}

/-! ## What leaves the session alone -/

/-- What is taken at the end of the target was handed over. -/
theorem still_take_done {who : Task} {p : Packet} (h : x.take .second who = (y, .done p)) :
    x.Still (y.record p) := by
  obtain ⟨hstill, hmem⟩ := still_take x h
  refine ⟨hstill.session, hstill.waiting, hstill.results, fun q hq => ?_⟩
  replace hq : q ∈ y.transport.second.queue ∨ q ∈ p :: y.received := hq
  rw [List.mem_cons] at hq
  rcases hq with hq | rfl | hq
  · exact hstill.handed q (Or.inl hq)
  · exact Or.inl (hmem q rfl rfl)
  · exact hstill.handed q (Or.inr hq)

theorem still_takeAll (x : Executive α) (e : End) : x.Still (x.takeAll e).1 := by
  unfold takeAll
  refine Still.trans ?_ (still_foldl (fun y _ => still_makeRoom y e) _ _)
  cases e with
  | first => exact Still.of_eq rfl
  | second =>
    exact ⟨rfl, fun _ => rfl, rfl, fun p hp => hp.elim (fun hp => by cases hp) Or.inr⟩

theorem still_close (x : Executive α) (e : End) : x.Still (x.close e) := by
  unfold close
  simp only
  have hclosed : x.Still { x with
      transport := x.transport.close e, receiving := x.receiving.erase e } := by
    cases e with
    | first => exact Still.of_eq rfl
    | second =>
      exact ⟨rfl, fun _ => rfl, rfl, fun p hp => hp.elim (fun hp => by cases hp) Or.inr⟩
  exact hclosed.trans (Still.of_eq rfl)

theorem still_startDelivery (x : Executive α) (delayMs : Nat) (p : Packet) :
    x.Still (x.startDelivery delayMs p) := Still.of_eq rfl

theorem still_turnDelivery (x : Executive α) (n : Nat) : x.Still (x.turnDelivery n) := by
  unfold turnDelivery
  split
  · exact Still.refl x
  · split
    · split
      · rename_i y heq
        exact (still_put x heq).1 (Or.inl rfl)
      · rename_i y attempt _ heq
        exact ((still_put x heq).1 (Or.inl rfl)).trans (Still.of_eq rfl)
    · exact Still.of_eq rfl

/-- Whoever does not notice how the session came to be does not notice a change of it. -/
theorem Still.setChannel (h : x.Still y) (m : Address) (c : RegisterChannel) :
    (x.setChannel m c).Still (y.setChannel m c) :=
  ⟨congrArg (·.setChannel m c) h.session, h.waiting, h.results, h.handed⟩

theorem still_awaitAnswer (x : Executive α) (m : Address) (c : RegisterChannel) :
    x.Still (x.awaitAnswer m c) := by
  unfold awaitAnswer
  simp only
  split
  · split <;> exact Still.of_eq rfl
  · exact Still.of_eq rfl

end Executive

namespace SessionRun

open Executive

variable {α : Type} {r : SessionRun α} {x y : Executive α} {starts : Operation α → Prop}

theorem Explains.foldl {β : Type} {f : Executive α → β → Executive α}
    (hf : ∀ x b, r.Explains starts x → r.Explains starts (f x b)) (bs : List β)
    (h : r.Explains starts x) : r.Explains starts (bs.foldl f x) := by
  induction bs generalizing x with
  | nil => exact h
  | cons b bs ih => exact ih (hf x b h)

/-! ## Results that operations wait for -/

theorem Explains.conclude (h : r.Explains starts x) (id : Nat) (v : Except SessionError Value) :
    r.Explains starts (x.conclude id v) := by
  unfold Executive.conclude
  split
  · rename_i m request next s hw
    have hwaits := h.still (still_park hw .fresh)
    have hheard := hwaits.hear (q := .step (next v)) (t := .fresh) (.accessed v) fun _ => rfl
    exact hheard.still (Still.of_eq rfl)
  · exact h

theorem Explains.tell (h : r.Explains starts x) (id : Nat) (t : Option SimulatedTarget) :
    r.Explains starts (x.tell id t) := by
  unfold Executive.tell
  split
  · rename_i f next s hw
    have hwaits := h.still (still_park hw .fresh)
    have hheard := hwaits.hear (q := .step (next t)) (t := .fresh) (.told t) fun _ => rfl
    exact hheard.still (Still.of_eq rfl)
  · exact h

theorem Explains.letGo (h : r.Explains starts x) (id : Nat) :
    r.Explains starts (x.letGo id) := by
  unfold Executive.letGo
  split
  · rename_i next s hw
    have hwaits := h.still (still_park hw .fresh)
    have hgone := hwaits.goOn_alone (q := .step next) (t := .fresh) fun _ => rfl
    exact hgone.still (Still.of_eq rfl)
  · exact h

/-! ## The turn of a register channel -/

/-- A register channel works. -/
theorem Explains.work {m : Address} {c d : RegisterChannel} (h : r.Explains starts x)
    (hc : x.session.channel? m = some c) (w : ChannelWork)
    (hwork : ∀ r' : SessionRun α, r'.session = x.session →
      r'.work m c w = { r' with session := x.session.setChannel m d }) :
    r.Explains starts (x.setChannel m d) := by
  refine h.session (.work m w) (fun _ _ heq => by cases heq) fun r' htracks => ?_
  simp only [act]
  rw [htracks.session, hc]
  exact hwork r' htracks.session

/-- The transport takes or refuses the request of a register channel. -/
theorem Explains.request {m : Address} {c d : RegisterChannel} {call : RegisterCall}
    (h : r.Explains starts x) (hc : x.session.channel? m = some c)
    (hphase : c.phase = .sending call) (w : ChannelWork)
    (hwork : ∀ r' : SessionRun α, r'.session = x.session →
      r'.work m c w = { r' with session := x.session.setChannel m d }.hand
        (c.request? m x.session.config.host).toList) :
    r.Explains starts
      ((x.record (call.transaction.toRequest m x.session.config.host)).setChannel m d) := by
  have hrequest : (c.request? m x.session.config.host).toList =
      [call.transaction.toRequest m x.session.config.host] := by
    simp [RegisterChannel.request?, hphase]
  refine h.snoc (.work m w) (fun _ _ heq => by cases heq) fun r' htracks => ?_
  simp only [act]
  rw [htracks.session, hc]
  simp only
  rw [hwork r' htracks.session, hrequest]
  exact (htracks.withSession _).hand _

theorem Explains.turnChannel (m : Address) (fuel : Nat) (x : Executive α)
    (h : r.Explains starts x) : r.Explains starts (turnChannel m fuel x) := by
  induction fuel generalizing x with
  | zero => exact h
  | succ fuel ih =>
    unfold Executive.turnChannel
    split
    · exact h
    · rename_i c hc
      split
      · exact h.still (Still.of_eq rfl)
      · split
        · split
          · exact h.still (Still.of_eq rfl)
          · refine ih _ ?_
            have htaken := h.work (d := c.take) hc .take fun r' hr => by
              rw [← hr]
              rfl
            exact htaken.still (Still.of_eq rfl)
        · rename_i call hphase
          simp only
          split
          · rename_i y hput
            refine ih _ ?_
            have hsent := h.request (d := c.sent (y.clock + y.session.config.registerTimeoutMs))
              hc hphase (.send _) fun r' hr => by
                rw [← hr]
                rfl
            exact hsent.still ((still_put x hput).2.setChannel m _)
          · rename_i y error hput
            refine ih _ (Explains.conclude ?_ _ _)
            have hrefused := h.request (d := (c.refuse error).1) hc hphase (.refuse error)
              fun r' hr => by
                rw [← hr]
                rfl
            exact hrefused.still ((still_put x hput).2.setChannel m _)
          · rename_i y hput
            exact h.still ((still_put x hput).1 (Or.inr (by simp)))
        · split
          · rename_i c' call v hended
            refine ih _ (Explains.conclude ?_ _ _)
            have hconcluded := h.work (d := c') hc (.conclude x.clock) fun r' hr => by
              rw [← hr]
              simp only [SessionRun.work, hended]
            exact hconcluded.still (Still.of_eq rfl)
          · exact h.still (still_awaitAnswer ..)

/-! ## The turn of the receiver -/

theorem Explains.dispatch (h : r.Explains starts x) (p : Packet) :
    r.Explains starts (x.dispatch p) := by
  have harrived : r.Explains starts { x with session := (x.session.dispatch p).1 } := by
    refine h.session (.arrive p) (fun _ _ heq => by cases heq) fun r' htracks => ?_
    simp only [act]
    rw [htracks.session]
  refine harrived.still ?_
  unfold Executive.dispatch
  simp only
  generalize (x.session.dispatch p).2 = outcome
  cases outcome with
  | queued =>
    exact (still_ringHolder _ _).after_eq rfl
  | _ => exact Still.of_eq rfl

theorem Explains.bidFarewell (h : r.Explains starts x) : r.Explains starts x.bidFarewell := by
  unfold Executive.bidFarewell
  refine Explains.foldl (fun x f hx => ?_) _ (h.still (Still.of_eq rfl))
  exact Explains.foldl (fun x id hx => hx.letGo id) _
    (Explains.foldl (fun x id hx => hx.conclude id _) _ hx)

theorem Explains.receivePackets (fuel : Nat) (x : Executive α) (h : r.Explains starts x) :
    r.Explains starts (receivePackets fuel x) := by
  induction fuel generalizing x with
  | zero => exact h
  | succ fuel ih =>
    unfold Executive.receivePackets
    split
    · split
      · exact h.still (Still.of_eq rfl)
      · exact ih _ (h.dispatch _)
    · split
      · rename_i y p heq
        have htake := h.still (still_take x heq).1
        split
        · exact htake.still (Still.of_eq rfl)
        · exact ih _ (htake.dispatch _)
      · rename_i y e heq
        have htake := h.still (still_take x heq).1
        have hlost : r.Explains starts { y with session := y.session.loseTransport } := by
          refine htake.session .lose (fun _ _ heq => by cases heq) fun r' htracks => ?_
          have hsession : r'.session = y.session := htracks.session
          simp only [act]
          rw [hsession]
        exact hlost.still (still_ringHolder _ _)
      · rename_i y heq
        exact h.still (still_take x heq).1

theorem Explains.turnReceiver (h : r.Explains starts x) : r.Explains starts x.turnReceiver := by
  unfold Executive.turnReceiver
  simp only
  split
  · exact Explains.receivePackets _ _ h.bidFarewell
  · exact h.bidFarewell.still (Still.of_eq rfl)

/-! ## The turn of the target -/

theorem Explains.closeTarget (h : r.Explains starts x) : r.Explains starts x.closeTarget := by
  unfold Executive.closeTarget
  have hclosed : x.Still ((x.plan (·.cancelTimer .target)).close .second) :=
    (still_plan x _).trans (still_close _ .second)
  exact Explains.foldl (fun x id hx => hx.tell id none) _
    ((h.still hclosed).still (Still.of_eq rfl))

theorem Explains.post (ps : List (Nat × Packet)) (x : Executive α) (h : r.Explains starts x) :
    r.Explains starts (post ps x).1 := by
  induction ps generalizing x with
  | nil => exact h.still (Still.of_eq rfl)
  | cons d ps ih =>
    obtain ⟨ms, p⟩ := d
    cases ms with
    | zero =>
      rw [Executive.post]
      have hput : ∀ (y : Executive α) attempt, x.put .second p .target = (y, attempt) →
          r.Explains starts y := fun y attempt heq => h.still ((still_put x heq).1 (Or.inl rfl))
      split
      · rename_i y heq
        exact ih y (hput y _ heq)
      · rename_i y e heq
        exact (hput y _ heq).closeTarget
      · rename_i y heq
        exact (hput y _ heq).still (Still.of_eq rfl)
    | succ ms =>
      rw [Executive.post]
      · exact ih _ (h.still (still_startDelivery ..))
      · exact Nat.succ_ne_zero ms

theorem Explains.followScript (fuel : Nat) (t : ScriptedTarget) (x : Executive α)
    (h : r.Explains starts x) : r.Explains starts (followScript fuel t x) := by
  induction fuel generalizing t x with
  | zero => exact h.still (Still.of_eq rfl)
  | succ fuel ih =>
    unfold Executive.followScript
    split
    · rename_i y p heq
      have hreceived : r.Explains starts { y with received := p :: y.received } :=
        h.still (still_take_done heq)
      simp only
      split
      · exact ih _ _ hreceived
      · exact Explains.closeTarget (hreceived.still (Still.of_eq rfl))
      · rename_i t replies _
        have hposted := Explains.post (replies.map fun r => (r.delayMs, r.toPacket p)) _ hreceived
        split
        · rename_i z hz
          rw [hz] at hposted
          exact ih _ _ hposted
        · rename_i z hz
          rw [hz] at hposted
          exact hposted.still (Still.of_eq rfl)
    · rename_i y attempt _ heq
      exact (h.still (still_take x heq).1).still (Still.of_eq rfl)

theorem Explains.turnScripted (h : r.Explains starts x) (t : ScriptedTarget) :
    r.Explains starts (x.turnScripted t) := by
  have hposted := Explains.post x.outbox x h
  unfold Executive.turnScripted
  split
  · rename_i y heq
    rw [heq] at hposted
    exact Explains.followScript _ t y hposted
  · rename_i y heq
    rw [heq] at hposted
    exact hposted

theorem Explains.answerAskers (h : r.Explains starts x) : r.Explains starts x.answerAskers := by
  unfold Executive.answerAskers
  refine Explains.foldl (fun x id hx => ?_) _ (h.still (Still.of_eq rfl))
  split
  · refine Explains.tell (hx.still ?_) _ _
    exact Still.of_eq rfl
  · exact hx

theorem Explains.burst (n : Nat) (t : SimulatedTarget) (x : Executive α)
    (h : r.Explains starts x) : r.Explains starts (burst n t x).1 := by
  induction n generalizing t x with
  | zero => exact h.still (Still.of_eq rfl)
  | succ n ih =>
    unfold Executive.burst
    simp only
    have hposted := Explains.post (t.step.2.toList.map fun p => (0, p)) x h
    split
    · rename_i y heq
      rw [heq] at hposted
      exact hposted.still (Still.of_eq rfl)
    · rename_i y heq
      rw [heq] at hposted
      split
      · exact hposted.still (Still.of_eq rfl)
      · exact ih _ y hposted

theorem Explains.endBurst (h : r.Explains starts x) : r.Explains starts x.endBurst := by
  unfold Executive.endBurst
  simp only
  have htaken : r.Explains starts ({ x with burstLeft := none }.takeAll .second).1 := by
    exact h.still ((still_takeAll _ .second).after_eq rfl)
  generalize (takeAll { x with burstLeft := none } .second).1 = y at htaken ⊢
  split
  · rename_i t _
    generalize (List.foldl SimulatedTarget.accept t _) = t'
    have hset : r.Explains starts (y.setTarget t') :=
      htaken.still (Still.of_eq rfl)
    split
    · exact hset.closeTarget
    · split
      · exact hset.answerAskers.still (Still.of_eq rfl)
      · exact hset.answerAskers.still (Still.of_eq rfl)
  · exact htaken
  · exact htaken

theorem Explains.continueBurst (h : r.Explains starts x) (n : Nat) (t : SimulatedTarget) :
    r.Explains starts (continueBurst n t x) := by
  have hburst := Explains.burst n t x h
  unfold Executive.continueBurst
  split
  · rename_i y heq
    rw [heq] at hburst
    exact hburst.endBurst
  · rename_i y heq
    rw [heq] at hburst
    exact hburst

theorem Explains.attend (fuel : Nat) (x : Executive α) (h : r.Explains starts x) :
    r.Explains starts (attend fuel x) := by
  induction fuel generalizing x with
  | zero => exact h
  | succ fuel ih =>
    unfold Executive.attend
    split
    · split
      · exact h.continueBurst _ _
      · split
        · exact ih _ h.answerAskers
        · split
          · rename_i y p heq
            exact ih _ ((h.still (still_take x heq).1).still (Still.of_eq rfl))
          · rename_i y e heq
            exact (h.still (still_take x heq).1).closeTarget
          · rename_i y heq
            exact (h.still (still_take x heq).1).still (Still.of_eq rfl)
    · exact h
    · exact h

theorem Explains.turnSimulated (h : r.Explains starts x) (t : SimulatedTarget) :
    r.Explains starts (x.turnSimulated t) := by
  unfold Executive.turnSimulated
  have hposted := Explains.post x.outbox x h
  split
  · exact h
  · split
    · rename_i y heq
      rw [heq] at hposted
      exact hposted
    · rename_i y n heq _
      rw [heq] at hposted
      split
      · exact hposted.endBurst
      · exact hposted.continueBurst _ _
    · rename_i y heq _
      rw [heq] at hposted
      exact Explains.attend _ y hposted

theorem Explains.turnTarget (h : r.Explains starts x) : r.Explains starts x.turnTarget := by
  unfold Executive.turnTarget
  split
  · split
    · exact h.turnSimulated _
    · exact h.turnScripted _
    · exact h
  · exact h

/-! ## Turns and rounds -/

/-- Everybody's turn is a series of events. -/
theorem Explains.turn (h : r.Explains starts x) (t : Task) : r.Explains starts (x.turn t) := by
  have hnew : r.Explains starts (x.plan Agenda.newTurn) :=
    h.still (Still.of_eq rfl)
  cases t with
  | operation id => exact hnew.advanceWaiting id
  | receiver => exact hnew.turnReceiver
  | channel m => exact Explains.turnChannel m _ _ hnew
  | target => exact hnew.turnTarget
  | delivery n => exact hnew.still (still_turnDelivery _ n)

theorem Explains.lookAtCalled (fuel found : Nat) (x : Executive α) (h : r.Explains starts x) :
    r.Explains starts (lookAtCalled fuel found x) := by
  induction fuel generalizing found x with
  | zero => exact h
  | succ fuel ih =>
    unfold Executive.lookAtCalled
    split
    · exact h
    · rename_i id rest _
      have hnext : r.Explains starts (x.plan fun a => { a with called := rest }) :=
        h.still (still_plan x _)
      simp only
      split
      · exact ih _ _ hnext
      · split
        · exact ih _ _ (hnext.advanceWaiting id)
        · split
          · exact hnext.advanceWaiting id
          · exact ih _ _ (hnext.advanceWaiting id)

theorem Explains.lookAt (h : r.Explains starts x) (ids : List Nat) :
    r.Explains starts (x.lookAt ids) := by
  unfold Executive.lookAt
  split
  · exact Explains.lookAtCalled _ _ x h
  · exact Explains.foldl (fun x id hx => hx.advanceWaiting id) ids h

theorem Explains.look (h : r.Explains starts x) : r.Explains starts x.look := by
  have hnew : r.Explains starts (x.plan Agenda.newTurn) := h.still (still_plan x _)
  unfold Executive.look
  simp only
  split
  · exact hnew.lookAt []
  · exact (hnew.still (still_plan _ _)).lookAt _

theorem Explains.endRound (h : r.Explains starts x) : r.Explains starts x.endRound := by
  have hnew : r.Explains starts (x.plan Agenda.newRound) := h.still (still_plan x _)
  unfold Executive.endRound
  simp only
  split
  · exact hnew
  · exact hnew.look

theorem Explains.runUntil (stop : Executive α → Bool) (limit : Option Nat) (fuel : Nat)
    (x : Executive α) (h : r.Explains starts x) :
    r.Explains starts (runUntil stop limit fuel x) := by
  induction fuel generalizing x with
  | zero => exact h
  | succ fuel ih =>
    unfold Executive.runUntil
    split
    · exact h
    · split
      · exact ih _ ((h.still (still_plan x _)).turn _)
      · split
        · exact ih _ h.endRound
        · split
          · exact h
          · split
            · exact ih _ ((h.still (still_plan x _)).endRound)
            · exact h

/-! ## Operations that are run together -/

/-- Operations are started that wait for their first look. -/
theorem Explains.enrol (os : List (Operation α)) (hos : ∀ o ∈ os, starts o) (x : Executive α)
    (h : r.Explains starts x) : r.Explains starts (enrol os x).1 := by
  induction os generalizing x with
  | nil => exact h
  | cons o os ih =>
    refine ih (fun q hq => hos q (List.mem_cons_of_mem o hq)) _ ?_
    have hnext : r.Explains starts { x with nextId := x.nextId + 1 } :=
      h.still (Still.of_eq rfl)
    refine hnext.snoc (.start x.nextId o) (fun id q heq => ?_) fun r' htracks => ?_
    · obtain ⟨-, rfl⟩ := SessionEvent.start.inj heq
      exact hos _ List.mem_cons_self
    · refine ⟨htracks.session, fun i => ?_, htracks.results, htracks.handed⟩
      have hbefore := htracks.running i
      show (r'.running.insert _ _).find? i = ((x.waiting.insert _ _).find? i).map _
      rw [Table.find?_insert, Table.find?_insert]
      split
      · rfl
      · exact hbefore

/-- Operations that have been started are looked at, and then everybody has turns. -/
theorem Explains.runEnrolled {os : List (Operation α)}
    (h : r.Explains starts
      (Executive.enrol os { x with crowded := decide (crowdSize < os.length) }).1) :
    r.Explains starts (x.runAll os).1 := by
  refine Explains.runUntil _ _ _ _ ?_
  split
  · refine Explains.lookAt (h.still ?_) _
    exact Still.of_eq rfl
  · exact h.lookAt _

/-- Running operations until all have ended is a series of events, in which nothing else
is started. -/
theorem Explains.runAll (h : r.Explains starts x) {os : List (Operation α)}
    (hos : ∀ o ∈ os, starts o) : r.Explains starts (x.runAll os).1 :=
  Explains.runEnrolled (Explains.enrol os hos _ (h.still (Still.of_eq rfl)))

end SessionRun

end ProbeNet
