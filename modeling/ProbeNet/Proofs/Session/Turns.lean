import ProbeNet.Proofs.Session.Correlation
import ProbeNet.Session.Executive.Turns

/-!
# The turns of a channel

In its turn a register channel goes on until it has to wait.  `turnChannel_events`
says that such a turn does to the session what a series of events of the channel
does, so what holds for all orders of events holds for the order in which an
executive gives turns.
-/

namespace ProbeNet

/-- The events that the channel brings about by itself. -/
def ChannelEvent.IsWork : ChannelEvent → Prop
  | .take | .send _ | .refuse _ | .conclude _ => True
  | .submit _ | .answer _ _ | .other _ => False

namespace Executive

variable {α : Type}

/-! ## What leaves the session alone -/

@[simp] theorem session_setSenders (x : Executive α) (l : Line Task) (e : End) :
    (x.setSenders l e).session = x.session := by
  cases e <;> rfl

@[simp] theorem session_put (x : Executive α) (e : End) (p : Packet) (who : Task) :
    (x.put e p who).1.session = x.session := by
  unfold put
  split
  · rfl
  · split
    · rfl
    · dsimp only
      split
      · exact session_setSenders ..
      · exact session_setSenders ..

@[simp] theorem session_conclude (x : Executive α) (id : Nat)
    (r : Except SessionError Register.Value) : (x.conclude id r).session = x.session := by
  unfold conclude
  split <;> rfl

@[simp] theorem session_awaitAnswer (x : Executive α) (m : Address) (c : RegisterChannel) :
    (x.awaitAnswer m c).session = x.session := by
  unfold awaitAnswer
  simp only
  split
  · split <;> rfl
  · rfl

/-! ## Turns -/

/-- One more event in front of a series. -/
theorem events_cons {m : Address} {r : ChannelRun} {x : Executive α} (event : ChannelEvent)
    (hwork : event.IsWork)
    (h : ∃ events : List ChannelEvent, (∀ e ∈ events, e.IsWork) ∧
      (events.foldl (ChannelRun.act m) (r.act m event)).session = x.session) :
    ∃ events : List ChannelEvent, (∀ e ∈ events, e.IsWork) ∧
      (events.foldl (ChannelRun.act m) r).session = x.session := by
  obtain ⟨events, hevents, hsession⟩ := h
  refine ⟨event :: events, fun e he => ?_, hsession⟩
  rcases List.mem_cons.mp he with rfl | he
  · exact hwork
  · exact hevents e he

/-- A turn of a channel is a series of its events. -/
theorem turnChannel_events (m : Address) (fuel : Nat) (x : Executive α) (r : ChannelRun)
    (hr : r.session = x.session) :
    ∃ events : List ChannelEvent, (∀ e ∈ events, e.IsWork) ∧
      (events.foldl (ChannelRun.act m) r).session = (turnChannel m fuel x).session := by
  -- On the steps of the turn.  The run follows the session, so it changes with it.
  induction fuel generalizing x r with
  | zero => exact ⟨[], by simp, hr⟩
  | succ fuel ih =>
    have hstays : ∀ y : Executive α, y.session = x.session →
        ∃ events : List ChannelEvent, (∀ e ∈ events, e.IsWork) ∧
          (events.foldl (ChannelRun.act m) r).session = y.session :=
      fun y hy => ⟨[], by simp, hr.trans hy.symm⟩
    unfold turnChannel
    split
    · exact hstays x rfl
    · rename_i c hc
      have hact : ∀ event, r.act m event = r.step m c event := by
        intro event
        unfold ChannelRun.act
        rw [hr, hc]
      split
      · exact hstays _ rfl
      · split
        · rename_i hphase
          split
          · exact hstays _ rfl
          · rename_i hcalls
            refine events_cons .take trivial (ih _ _ ?_)
            obtain ⟨call, calls, hcons⟩ := List.exists_cons_of_ne_nil (by simpa using hcalls)
            rw [hact]
            simp only [ChannelRun.step, hphase, hcons]
            rw [hr]
            rfl
        · rename_i call hphase
          have hput := x.session_put .first (call.transaction.toRequest m x.session.config.host)
            (.channel m)
          simp only
          split
          · rename_i y htaken
            rw [htaken] at hput
            refine events_cons (.send (y.clock + y.session.config.registerTimeoutMs)) trivial (ih _ _ ?_)
            rw [hact]
            simp only [ChannelRun.step, hphase]
            rw [hr, ← hput]
            rfl
          · rename_i y error hrefused
            rw [hrefused] at hput
            refine events_cons (.refuse error) trivial (ih _ _ ?_)
            rw [hact]
            simp only [ChannelRun.step, RegisterChannel.refuse, hphase, session_conclude]
            rw [hr, ← hput]
            rfl
          · rename_i y hblocked
            rw [hblocked] at hput
            exact hstays y hput
        · split
          · rename_i c' call result hended
            refine events_cons (.conclude x.clock) trivial (ih _ _ ?_)
            rw [hact]
            simp only [ChannelRun.step, hended]
            rw [hr]
            unfold endCall
            rw [session_conclude]
            rfl
          · exact hstays _ (session_awaitAnswer ..)

end Executive

end ProbeNet
