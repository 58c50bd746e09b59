import ProbeNet.Proofs.Session.Transport

/-!
# Requests that nobody takes

A register channel hands its request to the transport before the time for the answer
begins to run.  The queue of the transport is bounded, so a channel that finds it full
waits for the other side to receive something, however long that takes.

`timeout_ends_call_iff` says for which calls the end of the waiting time is enough: those
whose request has been taken, or can be.  For any other call nothing but the other side
helps.  Since the request of a call that was given up stays in the queue, as many calls
as the queue holds packets suffice to bring this about (`stuck_after_timeouts`).
-/

namespace ProbeNet

open Register

namespace TransportRun

variable {r : TransportRun} {m : Address} {c : RegisterChannel} {call : RegisterCall}
  {depth : Nat}

/-! ## Calls that wait for the other side -/

/-- The channel of the module has a request that does not fit into the queue. -/
structure Stuck (depth : Nat) (m : Address) (call : RegisterCall) (r : TransportRun) : Prop
    extends r.Sound depth where
  phase : r.session.phase? m = some (.sending call)
  full : depth ≤ r.backlog.length

/-- From `r` to `r'` no call for the module has ended. -/
def Outlasts (m : Address) (r r' : TransportRun) : Prop :=
  ∃ ended, r'.ended = r.ended ++ ended ∧ ∀ e ∈ ended, e.module ≠ m

theorem outlasts_of_eq {r' : TransportRun} (h : r'.ended = r.ended) : r.Outlasts m r' :=
  ⟨[], by rw [h, List.append_nil], nofun⟩

theorem Outlasts.trans {r' r'' : TransportRun} (h : r.Outlasts m r') (h' : r'.Outlasts m r'') :
    r.Outlasts m r'' := by
  obtain ⟨ended, heq, hne⟩ := h
  obtain ⟨ended', heq', hne'⟩ := h'
  refine ⟨ended ++ ended', by rw [heq', heq, List.append_assoc], fun e he => ?_⟩
  rcases List.mem_append.mp he with he | he
  · exact hne e he
  · exact hne' e he

/-- No step of a channel makes room, and the channel that is stuck cannot take one. -/
theorem Stuck.work (h : r.Stuck depth m call) {m' : Address}
    (hc : r.session.channel? m' = some c) :
    (r.step m' c).Stuck depth m call ∧ r.Outlasts m (r.step m' c) := by
  have hsound := h.toSound.work hc
  by_cases hm : m' = m
  · subst hm
    obtain ⟨c', hc', hsending⟩ := Session.exists_channel_of_phase? h.phase
    obtain rfl : c' = c := Option.some.inj (hc'.symm.trans hc)
    rw [h.step_of_full hsending h.full]
    exact ⟨h, outlasts_of_eq rfl⟩
  · have hother : ∀ c', (r.session.setChannel m' c').phase? m = some (.sending call) :=
      fun c' => (Session.phase?_setChannel_of_ne hm r.session c').trans h.phase
    rcases h.step_cases m' c with ⟨-, hstep⟩ | ⟨call', -, hroom, -⟩ |
      ⟨call', deadline, c', result, -, -, hstep⟩ | hstep
    · rw [hstep] at hsound ⊢
      exact ⟨⟨hsound, hother _, h.full⟩, outlasts_of_eq rfl⟩
    · exact absurd h.full (Nat.not_le.mpr hroom)
    · rw [hstep] at hsound ⊢
      refine ⟨⟨hsound, hother _, h.full⟩, [_], rfl, fun e he => ?_⟩
      rw [List.mem_singleton.mp he]
      exact hm
    · rw [hstep]
      exact ⟨h, outlasts_of_eq rfl⟩

theorem Stuck.act (h : r.Stuck depth m call) {event : TransportEvent}
    (hevent : event ≠ .receive) :
    (r.act event).Stuck depth m call ∧ r.Outlasts m (r.act event) := by
  have hsound := h.toSound.act event
  cases event with
  | submit m' call' =>
    exact ⟨⟨hsound, Session.phase?_submit_of_some h.phase, h.full⟩, outlasts_of_eq rfl⟩
  | work m' =>
    cases hc : r.session.channel? m' with
    | some c =>
      rw [act_work hc]
      exact h.work hc
    | none =>
      simp only [TransportRun.act, hc]
      exact ⟨h, outlasts_of_eq rfl⟩
  | arrive p =>
    exact ⟨⟨hsound, (r.session.phase?_dispatch p m).trans h.phase, h.full⟩, outlasts_of_eq rfl⟩
  | receive => exact absurd rfl hevent
  | elapse ms => exact ⟨⟨hsound, h.phase, h.full⟩, outlasts_of_eq rfl⟩

/-- As long as the other side receives nothing, a channel that is stuck stays so, and its
call does not end. -/
theorem Stuck.after (h : r.Stuck depth m call) {events : List TransportEvent}
    (hevents : .receive ∉ events) :
    (r.after events).Stuck depth m call ∧ r.Outlasts m (r.after events) := by
  induction events generalizing r with
  | nil => exact ⟨h, outlasts_of_eq rfl⟩
  | cons event events ih =>
    rw [List.mem_cons, not_or] at hevents
    obtain ⟨hevent, hrest⟩ := hevents
    obtain ⟨hstuck, hstep⟩ := h.act (Ne.symm hevent)
    obtain ⟨hlater, hmore⟩ := ih hstuck hrest
    exact ⟨hlater, hstep.trans hmore⟩

/-! ## Calls that end in time -/

/-- The call that the register channel of a module has in hand. -/
def inHand? (r : TransportRun) (m : Address) : Option RegisterCall :=
  match r.session.phase? m with
  | some (.sending call) => some call
  | some (.waiting call _) => some call
  | _ => none

/-- The answers that the register channel of a module has not looked at. -/
def answers (r : TransportRun) (m : Address) : List Packet :=
  ((r.session.channel? m).map RegisterChannel.responses).getD []

theorem answers_of_channel? (hc : r.session.channel? m = some c) : r.answers m = c.responses := by
  rw [answers, hc]
  rfl

/-- The waiting time of an access passes, and the channel goes on before and after. -/
def expiry (r : TransportRun) (m : Address) : List TransportEvent :=
  [.work m, .elapse r.timeoutMs, .work m]

theorem receive_not_mem_expiry (r : TransportRun) (m : Address) : .receive ∉ r.expiry m := by
  simp [expiry]

def expire (r : TransportRun) (m : Address) : TransportRun := r.after (r.expiry m)

/-- The call is the only one that has ended from `r` to `r'`, with a timeout unless there
was an answer. -/
def Ends (m : Address) (call : RegisterCall) (r r' : TransportRun) : Prop :=
  ∃ result, r'.ended = r.ended ++ [{ module := m, call, result }] ∧
    (r.answers m = [] → result = .error (.timeout m call.transaction.address))

/-- A channel that has waited for long enough ends its call. -/
theorem ends_work {deadline : Nat} (hc : r.session.channel? m = some c)
    (hphase : c.phase = .waiting call deadline) (htime : deadline ≤ r.clock) :
    r.Ends m call (r.act (.work m)) := by
  unfold Ends
  rw [act_work hc, answers_of_channel? hc]
  rcases step_of_waiting r m hphase with ⟨-, hearly⟩ | ⟨c', result, hstep, -, hresult⟩
  · exact absurd htime (Nat.not_le.mpr hearly)
  · rw [hstep]
    exact ⟨result, rfl, fun hnone => (hresult hnone).2⟩

/-- The transport takes the request, and the time for the answer passes. -/
theorem Sound.ends_expire_of_room (h : r.Sound depth) (hc : r.session.channel? m = some c)
    (hphase : c.phase = .sending call) (hroom : r.backlog.length < depth) :
    r.Ends m call (r.expire m) := by
  let handed : TransportRun := { r.hand m c call with clock := r.clock + r.timeoutMs }
  have hexpire : r.expire m = handed.act (.work m) := by
    show ((r.act (.work m)).act (.elapse r.timeoutMs)).act (.work m) = _
    rw [act_work hc, h.step_of_room hphase hroom]
    rfl
  have hhanded : handed.session.channel? m =
      some { c with phase := .waiting call (r.clock + r.timeoutMs) } :=
    Session.channel?_setChannel hc _
  have hanswers : handed.answers m = r.answers m :=
    (answers_of_channel? hhanded).trans (answers_of_channel? hc).symm
  have hends : handed.Ends m call (handed.act (.work m)) :=
    ends_work hhanded rfl (Nat.le_refl _)
  unfold Ends at hends ⊢
  rwa [hexpire, ← hanswers]

/-- The call ends at once, or when the time for the answer has passed. -/
theorem Sound.ends_expire_of_waiting {deadline : Nat} (h : r.Sound depth)
    (hc : r.session.channel? m = some c) (hphase : c.phase = .waiting call deadline) :
    r.Ends m call (r.expire m) := by
  show r.Ends m call (((r.act (.work m)).act (.elapse r.timeoutMs)).act (.work m))
  rw [act_work hc]
  rcases step_of_waiting r m hphase with ⟨hstep, -⟩ | ⟨c', result, hstep, hidle, hresult⟩
  · rw [hstep]
    have hwaiting : r.session.phase? m = some (.waiting call deadline) := by
      rw [Session.phase?_of_channel? hc, hphase]
    have htime : deadline ≤ r.clock + r.timeoutMs := h.deadline_le m call deadline hwaiting
    exact ends_work (r := r.act (.elapse r.timeoutMs)) hc hphase htime
  · -- The time passes without effect, since the channel has nothing in hand any more.
    rw [hstep]
    refine ⟨result, ?_, fun hnone => (hresult ((answers_of_channel? hc).symm.trans hnone)).2⟩
    have hfinished : ((r.finish m c' call result).act (.elapse r.timeoutMs)).session.channel? m =
        some c' := Session.channel?_setChannel hc c'
    rw [act_work hfinished, step_of_idle hidle]
    rfl

/-- After `n` calls that timed out, the channel of the module has nothing to do, and their
requests are still there. -/
structure Exhausted (depth : Nat) (m : Address) (t : Transaction) (n : Nat) (r : TransportRun) :
    Prop extends r.Sound depth where
  opened : r.session.connection.isSome
  channel : (r.session.channel? m).getD {} = {}
  backlog : r.backlog.length = n
  ended : r.ended = (List.range n).map fun id =>
    { module := m, call := { id, transaction := t }
      result := .error (.timeout m t.address) }

/-- Somebody calls, and the channel takes the call. -/
def beginCall (m : Address) (call : RegisterCall) : List TransportEvent :=
  [.submit m call, .work m]

theorem Exhausted.begin {t : Transaction} {n : Nat} (h : r.Exhausted depth m t n) (id : Nat) :
    let begun := r.after (beginCall m { id, transaction := t })
    begun.session.channel? m = some { phase := .sending { id, transaction := t } } ∧
      begun.session.connection.isSome ∧ begun.backlog = r.backlog ∧ begun.ended = r.ended := by
  have hcalled : r.session.submit m { id, transaction := t } =
      r.session.setChannel m { calls := [{ id, transaction := t }] } := by
    unfold Session.submit
    rw [h.channel]
    rfl
  have hc := Session.channel?_setChannel_self (m := m) h.opened
    { calls := [{ id, transaction := t }] }
  have hbegun : r.after (beginCall m { id, transaction := t }) =
      ({ r with session := r.session.setChannel m { calls := [{ id, transaction := t }] } } :
        TransportRun).setChannel m { phase := .sending { id, transaction := t } } := by
    show ({ r with session := r.session.submit m { id, transaction := t } } :
      TransportRun).act (.work m) = _
    rw [hcalled, act_work hc, step_of_idle rfl]
    rfl
  rw [hbegun]
  refine ⟨Session.channel?_setChannel hc _, ?_, rfl, rfl⟩
  simp only [setChannel, Session.setChannel, Option.isSome_map]
  exact h.opened

/-- One more call times out, as long as there is room for its request. -/
theorem Exhausted.round {t : Transaction} {n : Nat} (h : r.Exhausted depth m t n)
    (hroom : n < depth) :
    ∃ events, .receive ∉ events ∧ (r.after events).Exhausted depth m t (n + 1) := by
  let call : RegisterCall := { id := n, transaction := t }
  let begun := r.after (beginCall m call)
  obtain ⟨hc, hopened, hbacklog, hbegun⟩ := h.begin n
  have hsound : begun.Sound depth := h.toSound.after _
  refine ⟨beginCall m call ++ begun.expiry m, by simp [beginCall, expiry], ?_⟩
  rw [after_append]
  -- The transport takes the request, and the time for the answer passes.
  let waiting : RegisterChannel := { phase := .waiting call (begun.clock + begun.timeoutMs) }
  let handed := (begun.hand m { phase := .sending call } call).act (.elapse begun.timeoutMs)
  have hwaiting : handed.session.channel? m = some waiting := Session.channel?_setChannel hc _
  have hlater : begun.after (begun.expiry m) = handed.act (.work m) := by
    have hroom' : begun.backlog.length < depth := by rwa [hbacklog, h.backlog]
    have hhanded : begun.act (.work m) = begun.hand m { phase := .sending call } call := by
      rw [act_work hc, hsound.step_of_room rfl hroom']
    show ((begun.act (.work m)).act (.elapse begun.timeoutMs)).act (.work m) = _
    rw [hhanded]
  have hended : handed.act (.work m) =
      handed.finish m {} call (.error (.timeout m t.address)) := by
    rw [act_work hwaiting]
    rcases step_of_waiting handed m (c := waiting) rfl with ⟨-, hearly⟩ |
      ⟨c', result, hstep, -, hresult⟩
    · exact absurd hearly (Nat.lt_irrefl _)
    · obtain ⟨rfl, rfl⟩ := hresult rfl
      exact hstep
  have hlast := hsound.after (begun.expiry m)
  rw [hlater, hended] at hlast ⊢
  refine ⟨hlast, ?_, ?_, ?_, ?_⟩
  · simp only [finish, handed, act, hand, setChannel, Session.setChannel, Option.isSome_map]
    exact hopened
  · have hfree := Session.channel?_setChannel hwaiting {}
    show ((handed.session.setChannel m {}).channel? m).getD {} = {}
    rw [hfree]
    rfl
  · show (begun.backlog ++ [_]).length = n + 1
    rw [List.length_append, hbacklog, h.backlog]
    rfl
  · show begun.ended ++ [_] = _
    rw [hbegun, h.ended, List.range_succ, List.map_append]
    rfl

theorem exists_exhausted (s : Session) (depth : Nat) (m : Address) (t : Transaction) {n : Nat}
    (hn : n ≤ depth) :
    ∃ events, .receive ∉ events ∧ (ofEvents s depth events).Exhausted depth m t n := by
  induction n with
  | zero => exact ⟨[], nofun, sound_ofEvents s depth [], rfl, rfl, rfl, rfl⟩
  | succ n ih =>
    obtain ⟨events, hevents, hexhausted⟩ := ih (Nat.le_of_succ_le hn)
    obtain ⟨more, hmore, hround⟩ := hexhausted.round (Nat.lt_of_succ_le hn)
    refine ⟨events ++ more, ?_, ?_⟩
    · rw [List.mem_append, not_or]
      exact ⟨hevents, hmore⟩
    · unfold ofEvents at hround ⊢
      rwa [after_append]

/-- When as many calls have timed out as the queue holds packets, the next call does not
end before the other side receives, whatever else happens. -/
theorem stuck_after_timeouts (s : Session) (depth : Nat) (m : Address) (t : Transaction) :
    ∃ events, .receive ∉ events ∧
      (ofEvents s depth events).ended = (List.range depth).map (fun id =>
        { module := m, call := { id, transaction := t }
          result := .error (.timeout m t.address) }) ∧
      ∀ more, .receive ∉ more →
        ((ofEvents s depth events).after more).session.phase? m =
          some (.sending { id := depth, transaction := t }) := by
  obtain ⟨events, hevents, h⟩ := exists_exhausted s depth m t (Nat.le_refl depth)
  obtain ⟨hc, -, hbacklog, hended⟩ := h.begin depth
  let begun := (ofEvents s depth events).after (beginCall m { id := depth, transaction := t })
  have hlast : ofEvents s depth (events ++ beginCall m { id := depth, transaction := t }) =
      begun := after_append ..
  have hstuck : Stuck depth m { id := depth, transaction := t } begun := by
    have hfull : begun.backlog.length = depth := by rw [hbacklog, h.backlog]
    exact ⟨h.toSound.after _, Session.phase?_of_channel? hc, Nat.le_of_eq hfull.symm⟩
  refine ⟨events ++ beginCall m { id := depth, transaction := t }, ?_, ?_, ?_⟩
  · simp [beginCall, hevents]
  · rw [hlast]
    exact hended.trans h.ended
  · intro more hmore
    rw [hlast]
    exact (hstuck.after hmore).1.phase

end TransportRun

end ProbeNet
