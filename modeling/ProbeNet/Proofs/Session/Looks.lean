import ProbeNet.Session.Executive

/-!
# Looks at calls that concern events

A user can install a handler and wait for events.  An executive goes on with such a call
whenever it has a look at it.

* `EventCall` are these calls, `EventReply` is how they end; `operation_receive` writes out
  the program of a call that waits.
* `Arranged` says that nothing changes but who waits for what.
* `receive_cases` says that who waits for an event takes the oldest one of the queue, or
  none; `receive_of_held` says when it does take one.
* `advance_looked` says all that a look can lead to.
-/

namespace ProbeNet

open Session

/-! ## Calls -/

/-- What a user can ask for that concerns events. -/
inductive EventCall where
  /-- Events go to this handler from now on, or to none. -/
  | setHandler (handler : Option HandlerId)
  /-- Waits for the next event, or for so many milliseconds at most. -/
  | receive (wait : Option Nat)
  deriving DecidableEq, Repr

/-- How such a call ends. -/
inductive EventReply where
  | handlerSet (handler : Option HandlerId)
  | received (r : Except SessionError (Option Packet))
  deriving Repr

namespace EventReply

def packet? : EventReply → Option Packet
  | received (.ok p) => p
  | received (.error _) => none
  | handlerSet _ => none

/-- What a call has set the handler to, if it was such a call. -/
def handler? : EventReply → Option (Option HandlerId)
  | handlerSet handler => some handler
  | received _ => none

/-- What a call returns that has waited for an event. -/
def ofWaiting (wait : Option Nat) : Option (Except SessionError Packet) → EventReply
  | some r => received (r.map some)
  | none => received (if wait.isSome then .ok none else .error .notConnected)

end EventReply

namespace EventCall

def operation : EventCall → Operation EventReply
  | setHandler handler => do
    setEventHandler handler
    return .handlerSet handler
  | receive none => do return .received ((← eventReceive.run).map some)
  | receive (some ms) => do return .received (← (eventReceiveWithin ms).run)

/-- What is left of a call that waits for an event. -/
def waiting (wait : Option Nat) : Operation EventReply :=
  .receive wait fun r => .done (.ofWaiting wait r)

theorem operation_setHandler (handler : Option HandlerId) : (setHandler handler).operation =
    .step (.change (fun s => { s with handler }) (.done (.handlerSet handler))) := rfl

/-- A call that receives looks whether there is a connection, and then waits. -/
theorem operation_receive (wait : Option Nat) : (receive wait).operation =
    .look fun s =>
      if s.connected then waiting wait else .done (.received (.error .notConnected)) := by
  cases wait with
  | none =>
    refine congrArg Operation.look (funext fun s => ?_)
    show Operation.bind (ExceptT.bindCont _ (.ok s)) _ = _
    simp only [ExceptT.bindCont]
    cases s.connected with
    | false => rfl
    | true =>
      refine congrArg (Operation.receive none) (funext fun r => ?_)
      cases r with
      | none => rfl
      | some r => rfl
  | some ms =>
    refine congrArg Operation.look (funext fun s => ?_)
    show Operation.bind (ExceptT.bindCont _ (.ok s)) _ = _
    simp only [ExceptT.bindCont]
    cases s.connected with
    | false => rfl
    | true =>
      refine congrArg (Operation.receive (some ms)) (funext fun r => ?_)
      cases r with
      | none => rfl
      | some r => rfl

/-- The programs that such calls come to. -/
def IsLeft (o : Operation EventReply) : Prop :=
  (∃ c : EventCall, o = c.operation) ∨ ∃ wait, o = waiting wait

end EventCall

namespace Executive

/-! ## Who waits for what -/

section Arranged

variable {α : Type} {x y z : Executive α} {id : Nat}

/-- From `x` to `y` nothing changes but who has something to do, and who has the event
queue or waits for it. -/
def Arranged (x y : Executive α) : Prop :=
  ∃ agenda eventHolder eventLine, y = { x with agenda, eventHolder, eventLine }

theorem Arranged.refl (x : Executive α) : x.Arranged x := ⟨_, _, _, rfl⟩

theorem Arranged.trans (h : x.Arranged y) (h' : y.Arranged z) : x.Arranged z := by
  obtain ⟨a, b, c, rfl⟩ := h
  obtain ⟨a', b', c', rfl⟩ := h'
  exact ⟨a', b', c', rfl⟩

theorem arranged_plan (x : Executive α) (f : Agenda → Agenda) : x.Arranged (x.plan f) :=
  ⟨_, _, _, rfl⟩

theorem Arranged.park (h : x.Arranged y) (o : Operation α) (stage : Stage) :
    (x.park id o stage).Arranged (y.park id o stage) := by
  obtain ⟨a, b, c, rfl⟩ := h
  exact ⟨a, b, c, rfl⟩

theorem Arranged.finish (h : x.Arranged y) (a : α) : (x.finish id a).Arranged (y.finish id a) := by
  obtain ⟨b, c, d, rfl⟩ := h
  exact ⟨b, c, d, rfl⟩

theorem arranged_startTime (x : Executive α) (id ms : Nat) (stage : Stage) :
    x.Arranged (x.startTime id ms stage) := by
  cases stage with
  | fresh => exact ⟨_, _, _, rfl⟩
  | lined | underway => exact Arranged.refl x

theorem arranged_ringHolder (x : Executive α) (bell : Nat → Bell) :
    x.Arranged (x.ringHolder bell) := by
  unfold ringHolder
  split
  · exact arranged_plan ..
  · exact Arranged.refl x

theorem arranged_holdEvents (x : Executive α) (id : Nat) : x.Arranged (x.holdEvents id).1 := by
  unfold holdEvents
  split
  · exact Arranged.refl x
  · simp only
    split <;> exact ⟨_, _, _, rfl⟩

theorem arranged_leaveEvents (x : Executive α) (id : Nat) : x.Arranged (x.leaveEvents id) := by
  unfold leaveEvents
  simp only
  split <;> exact ⟨_, _, _, rfl⟩

theorem arranged_awaitEvent (x : Executive α) (id : Nat) (wait : Option Nat)
    (before after : Stage) : x.Arranged (x.awaitEvent id wait before after).1 := by
  unfold awaitEvent
  split
  · exact Arranged.refl x
  · split
    · exact (arranged_plan x _).trans (arranged_leaveEvents _ id)
    · exact arranged_startTime ..

/-- Waiting on brings no event. -/
theorem awaitEvent_ne_packet (x : Executive α) (id : Nat) (wait : Option Nat)
    (before after : Stage) (p : Packet) :
    (x.awaitEvent id wait before after).2 ≠ .ok (some (.ok p)) := by
  unfold awaitEvent
  split
  · exact nofun
  · split <;> exact nofun

/-- Who waits for an event takes the oldest one of the queue, or none. -/
theorem receive_cases (x : Executive α) (id : Nat) (wait : Option Nat) (stage : Stage) :
    (x.Arranged (x.receive id wait stage).1 ∧
        ∀ p, (x.receive id wait stage).2 ≠ .ok (some (.ok p))) ∨
      ∃ p session, x.session.takeEvent = some (p, session) ∧
        (x.receive id wait stage).2 = .ok (some (.ok p)) ∧
        Arranged { x with session } (x.receive id wait stage).1 := by
  have hheld := x.arranged_holdEvents id
  unfold receive
  split
  · exact Or.inl ⟨⟨_, _, _, rfl⟩, nofun⟩
  · split
    · rename_i y heq
      rw [heq] at hheld
      exact Or.inl ⟨hheld.trans (arranged_awaitEvent ..), fun p => awaitEvent_ne_packet _ _ _ _ _ p⟩
    · rename_i y heq
      rw [heq] at hheld
      split
      · rename_i p session htaken
        right
        have htaken' : y.session.takeEvent = some (p, session) := by
          split at htaken
          · cases htaken
          · exact htaken
        obtain ⟨a, b, c, rfl⟩ := hheld
        exact ⟨p, session, htaken', rfl, Arranged.trans ⟨_, _, _, rfl⟩ (arranged_leaveEvents _ id)⟩
      · left
        have hready : y.Arranged (if y.isSpent then y.giveWay (.operation id)
            else y.listenForEvents id) := by
          split <;> exact arranged_plan ..
        simp only
        generalize (if y.isSpent then y.giveWay (.operation id)
          else y.listenForEvents id) = z at hready ⊢
        split
        · exact ⟨(hheld.trans hready).trans (arranged_awaitEvent ..),
            fun p => awaitEvent_ne_packet _ _ _ _ _ p⟩
        · exact ⟨(hheld.trans hready).trans (arranged_leaveEvents _ id), nofun⟩

/-! ### Who finds an event -/

/-- Getting hold of the event queue takes one step at most. -/
theorem allowance_holdEvents (x : Executive α) (id : Nat) :
    x.agenda.allowance ≤ (x.holdEvents id).1.agenda.allowance + 1 := by
  unfold holdEvents
  split
  · exact Nat.le_succ _
  · simp only
    split
    · show x.agenda.allowance ≤ x.agenda.allowance - 1 + 1
      omega
    · exact Nat.le_succ _

variable {p : Packet} {rest : List Packet} {wait : Option Nat}

/-- Who gets hold of the event queue, and has a step left, takes the oldest event. -/
theorem receive_of_held (hevents : x.session.events = p :: rest)
    (hsteps : 2 ≤ x.agenda.allowance) (hheld : (x.holdEvents id).2 = true) (stage : Stage) :
    (x.receive id wait stage).2 = .ok (some (.ok p)) := by
  have hallowance := x.allowance_holdEvents id
  obtain ⟨_, _, _, hsame⟩ := x.arranged_holdEvents id
  have hspent : x.isSpent = false := by
    simp only [isSpent, decide_eq_false_iff_not]
    omega
  unfold receive
  generalize hheld' : x.holdEvents id = out at hheld hallowance hsame
  obtain ⟨y, held⟩ := out
  obtain rfl : held = true := hheld
  replace hallowance : x.agenda.allowance ≤ y.agenda.allowance + 1 := hallowance
  have hspent' : y.isSpent = false := by
    simp only [isSpent, decide_eq_false_iff_not]
    omega
  have htaken : y.session.takeEvent = some (p, { y.session with events := rest }) := by
    have hqueue : y.session.events = p :: rest := by
      rw [show y = _ from hsame]
      exact hevents
    rw [Session.takeEvent, hqueue]
  simp only [hspent, hspent', htaken, Bool.false_eq_true, if_false]

end Arranged

/-! ## A look at a call -/

variable {x y : Executive EventReply} {id : Nat}

/-- What a look at a call leads to. -/
inductive Looked (x : Executive EventReply) (id : Nat) : Executive EventReply → Prop where
  | waits (o : Operation EventReply) (stage : Stage) (y : Executive EventReply)
      (ho : EventCall.IsLeft o) (h : (x.park id o stage).Arranged y) : Looked x id y
  | switches (handler : Option HandlerId) (y : Executive EventReply)
      (h : (finish { x with session := { x.session with handler } } id
        (.handlerSet handler)).Arranged y) : Looked x id y
  | takes (p : Packet) (session : Session) (y : Executive EventReply)
      (htaken : x.session.takeEvent = some (p, session))
      (h : (finish { x with session } id (.received (.ok (some p)))).Arranged y) : Looked x id y
  | ends (reply : EventReply) (y : Executive EventReply) (hpacket : reply.packet? = none)
      (hhandler : reply.handler? = none) (h : (x.finish id reply).Arranged y) : Looked x id y

/-- A reply without an event says nothing about the handler either. -/
theorem ofWaiting_of_ne (wait : Option Nat) {r : Option (Except SessionError Packet)}
    (h : ∀ p, r ≠ some (.ok p)) : (EventReply.ofWaiting wait r).packet? = none ∧
      (EventReply.ofWaiting wait r).handler? = none := by
  match r, h with
  | none, _ =>
    cases wait <;> exact ⟨rfl, rfl⟩
  | some (.error e), _ => exact ⟨rfl, rfl⟩
  | some (.ok p), h => exact absurd rfl (h p)

theorem advance_waiting (wait : Option Nat) (stage : Stage) :
    x.Looked id (advance id (EventCall.waiting wait) stage x) := by
  simp only [EventCall.waiting, advance]
  rcases x.receive_cases id wait stage with ⟨hsame, hnone⟩ | ⟨p, session, htaken, hout, hsame⟩
  · split
    · rename_i y r heq
      rw [heq] at hsame hnone
      have hne : ∀ p, r ≠ some (.ok p) := fun p hp => hnone p (by rw [hp])
      obtain ⟨hpacket, hhandler⟩ := ofWaiting_of_ne wait hne
      exact Looked.ends _ _ hpacket hhandler (hsame.finish _)
    · rename_i y stage heq
      rw [heq] at hsame
      exact Looked.waits _ stage _ (Or.inr ⟨wait, rfl⟩) (hsame.park _ _)
  · generalize x.receive id wait stage = out at hout hsame ⊢
    obtain ⟨y, out⟩ := out
    obtain rfl : out = .ok (some (.ok p)) := hout
    exact Looked.takes p session _ htaken (hsame.finish _)

theorem advance_setHandler (handler : Option HandlerId) (stage : Stage) :
    x.Looked id (advance id (EventCall.setHandler handler).operation stage x) := by
  rw [EventCall.operation_setHandler]
  simp only [advance, takeStep]
  split
  · rename_i y htaken
    split at htaken
    · cases htaken
    · obtain ⟨rfl, -⟩ := Prod.mk.inj htaken
      refine Looked.switches handler _ ?_
      unfold changeSession
      simp only
      split <;> exact ⟨_, _, _, rfl⟩
  · rename_i y htaken
    split at htaken
    · obtain ⟨rfl, -⟩ := Prod.mk.inj htaken
      exact Looked.waits _ .fresh _ (Or.inl ⟨.setHandler handler, rfl⟩) ⟨_, _, _, rfl⟩
    · cases htaken

/-- A look at a call goes on with it, or ends it. -/
theorem advance_looked {o : Operation EventReply} (ho : EventCall.IsLeft o) (stage : Stage) :
    x.Looked id (advance id o stage x) := by
  rcases ho with ⟨c, rfl⟩ | ⟨wait, rfl⟩
  · cases c with
    | setHandler handler => exact advance_setHandler handler stage
    | receive wait =>
      rw [EventCall.operation_receive, advance]
      split
      · exact advance_waiting wait .fresh
      · exact Looked.ends _ _ rfl rfl (Arranged.refl _)
  · exact advance_waiting wait stage

end Executive

end ProbeNet
