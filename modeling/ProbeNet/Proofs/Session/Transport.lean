import ProbeNet.Proofs.Session.Correlation
import ProbeNet.Proofs.Session.Outcomes
import ProbeNet.Session.Executive.Turns

/-!
# Sessions over a transport

A `TransportRun` is a session with its end of a transport and a clock.  Its register
channels go on in any order, one step at a time, packets arrive, time passes, and the
other side receives when it likes.

`Sound.step_cases` says all that a step of a channel can be.  What every run keeps is
`Sound`: the transport stays open, and no channel waits for an answer for longer than an
access may take.  An executive gives turns to its channels in one order out of all of
these: `turnChannel_steps` says that such a turn is a series of steps of the channel.
-/

namespace ProbeNet

open Register

/-- What happens to a session and its end of the transport. -/
inductive TransportEvent where
  /-- Somebody calls. -/
  | submit (m : Address) (call : RegisterCall)
  /-- A register channel goes on by a step, if it can. -/
  | work (m : Address)
  | arrive (p : Packet)
  /-- The other side takes a packet out of the transport. -/
  | receive
  /-- So many milliseconds pass. -/
  | elapse (ms : Nat)
  deriving DecidableEq

/-- A call that has a result. -/
structure EndedCall where
  module : Address
  call : RegisterCall
  result : Except SessionError Value
  deriving DecidableEq

/-- A session that is the first end of a transport. -/
structure TransportRun where
  session : Session
  transport : ChannelPair
  /-- Milliseconds since the start. -/
  clock : Nat := 0
  /-- The calls that have a result, the oldest first. -/
  ended : List EndedCall := []

namespace TransportRun

def setChannel (r : TransportRun) (m : Address) (c : RegisterChannel) : TransportRun :=
  { r with session := r.session.setChannel m c }

/-- How many milliseconds a register access may take. -/
def timeoutMs (r : TransportRun) : Nat := r.session.config.registerTimeoutMs

/-- A channel goes on by a step, if it can. -/
def step (r : TransportRun) (m : Address) (c : RegisterChannel) : TransportRun :=
  match c.phase with
  | .idle => r.setChannel m c.take
  | .sending call =>
    match r.transport.send .first (call.transaction.toRequest m r.session.config.host) with
    | (transport, .done ()) => { r.setChannel m (c.sent (r.clock + r.timeoutMs)) with transport }
    | (_, .failed e) =>
      { r.setChannel m (c.refuse e).1 with
        ended := r.ended ++ [{ module := m, call, result := .error (.transport e) }] }
    | (_, .blocked) => r
  | .waiting _ _ =>
    match c.conclude m r.clock with
    | (c, some (call, result)) =>
      { r.setChannel m c with ended := r.ended ++ [{ module := m, call, result }] }
    | (_, none) => r

/-- The run after an event. -/
def act (r : TransportRun) : TransportEvent → TransportRun
  | .submit m call => { r with session := r.session.submit m call }
  | .work m =>
    match r.session.channel? m with
    | some c => r.step m c
    | none => r
  | .arrive p => { r with session := (r.session.dispatch p).1 }
  | .receive => { r with transport := (r.transport.receive .second).1 }
  | .elapse ms => { r with clock := r.clock + ms }

/-- The run after some events. -/
def after (r : TransportRun) (events : List TransportEvent) : TransportRun := events.foldl act r

/-- The run of some events after a session has opened a connection over a fresh transport. -/
def ofEvents (s : Session) (depth : Nat) (events : List TransportEvent) : TransportRun :=
  ({ session := s.openConnection, transport := { depth } } : TransportRun).after events

/-- The packets that the other side has not taken yet. -/
def backlog (r : TransportRun) : List Packet := r.transport.second.queue

theorem after_append (r : TransportRun) (events more : List TransportEvent) :
    r.after (events ++ more) = (r.after events).after more :=
  List.foldl_append

end TransportRun

/-! ## What channels do -/

namespace Session

variable {s : Session} {m : Address} {c : RegisterChannel}

/-- What the register channel of a module does, if it has been used. -/
def phase? (s : Session) (m : Address) : Option ChannelPhase :=
  (s.channel? m).map RegisterChannel.phase

theorem phase?_of_channel? (h : s.channel? m = some c) : s.phase? m = some c.phase := by
  rw [phase?, h]
  rfl

theorem exists_channel_of_phase? {phase : ChannelPhase} (h : s.phase? m = some phase) :
    ∃ c, s.channel? m = some c ∧ c.phase = phase := Option.map_eq_some_iff.mp h

theorem channel?_setChannel_of_ne {m' : Address} (hne : m ≠ m') (s : Session)
    (c : RegisterChannel) : (s.setChannel m c).channel? m' = s.channel? m' := by
  unfold channel? setChannel
  cases s.connection with
  | none => rfl
  | some n =>
    show (n.channels.insert m c).find? m' = n.channels.find? m'
    rw [Table.find?_insert, if_neg hne]

/-- With a connection a channel is what it has been set to, used before or not. -/
theorem channel?_setChannel_self (hopen : s.connection.isSome) (c : RegisterChannel) :
    (s.setChannel m c).channel? m = some c := by
  obtain ⟨n, hn⟩ := Option.isSome_iff_exists.mp hopen
  unfold channel? setChannel
  rw [hn]
  show (n.channels.insert m c).find? m = some c
  rw [Table.find?_insert, if_pos rfl]

theorem phase?_setChannel_of_ne {m' : Address} (hne : m ≠ m') (s : Session)
    (c : RegisterChannel) : (s.setChannel m c).phase? m' = s.phase? m' := by
  unfold phase?
  rw [channel?_setChannel_of_ne hne]

theorem phase?_setChannel (h : s.channel? m = some c) (c' : RegisterChannel) :
    (s.setChannel m c').phase? m = some c'.phase :=
  phase?_of_channel? (channel?_setChannel h c')

/-- A call changes what a channel has to do, but not what it does. -/
theorem phase?_submit_of_some {m' : Address} {call : RegisterCall} {phase : ChannelPhase}
    (h : s.phase? m' = some phase) : (s.submit m call).phase? m' = some phase := by
  by_cases hm : m = m'
  · subst hm
    obtain ⟨c, hc, rfl⟩ := exists_channel_of_phase? h
    rw [phase?_of_channel? (channel?_submit hc call)]
    rfl
  · unfold submit
    rw [phase?_setChannel_of_ne hm, h]

/-- A channel that does something has done it before the call. -/
theorem phase?_of_submit {m' : Address} {call : RegisterCall} {phase : ChannelPhase}
    (h : (s.submit m call).phase? m' = some phase) :
    s.phase? m' = some phase ∨ phase = .idle := by
  cases hphase : s.phase? m' with
  | some before =>
    rw [phase?_submit_of_some hphase] at h
    exact Or.inl h
  | none =>
    right
    have hnone : s.channel? m' = none := Option.map_eq_none_iff.mp hphase
    by_cases hm : m = m'
    · subst hm
      obtain ⟨c, hc, rfl⟩ := exists_channel_of_phase? h
      unfold submit at hc
      rw [hnone] at hc
      cases hopen : s.connection with
      | none =>
        unfold channel? setChannel at hc
        rw [hopen] at hc
        cases hc
      | some n =>
        rw [channel?_setChannel_self (by rw [hopen]; rfl)] at hc
        cases hc
        rfl
    · unfold submit at h
      rw [phase?_setChannel_of_ne hm, hphase] at h
      cases h

/-- What arrives does not change what a channel does. -/
theorem phase?_dispatch (s : Session) (p : Packet) (m : Address) :
    (s.dispatch p).1.phase? m = s.phase? m := by
  by_cases hanswer : p.src = m ∧ p.packetClass = .register
  · cases hc : s.channel? m with
    | none =>
      unfold dispatch routeResponse
      rw [hanswer.2, hanswer.1]
      simp only [hc]
    | some c =>
      rw [phase?_of_channel? (channel?_dispatch_answer hc hanswer.1 hanswer.2),
        phase?_of_channel? hc]
      unfold RegisterChannel.route
      split <;> rfl
  · unfold phase?
    rw [channel?_dispatch_other hanswer]

end Session

/-! ## The first end of a transport -/

theorem ChannelPair.send_first (c : ChannelPair) (p : Packet) :
    c.send .first p =
      if !c.second.isOpen || !c.first.isOpen then (c, .failed .closed)
      else if c.second.queue.length < c.depth then
        ({ c with second := { c.second with queue := c.second.queue ++ [p] } }, .done ())
      else (c, .blocked) := rfl

/-- A packet of the first end is taken, or there is no other end, or no room. -/
theorem ChannelPair.send_first_cases (c : ChannelPair) (p : Packet) :
    (c.send .first p =
        ({ c with second := { c.second with queue := c.second.queue ++ [p] } }, .done ()) ∧
      c.second.queue.length < c.depth) ∨
    c.send .first p = (c, .failed .closed) ∨
    (c.send .first p = (c, .blocked) ∧ c.depth ≤ c.second.queue.length) := by
  rw [send_first]
  by_cases hopen : (!c.second.isOpen || !c.first.isOpen) = true
  · rw [if_pos hopen]
    exact Or.inr (Or.inl rfl)
  · rw [if_neg hopen]
    by_cases hroom : c.second.queue.length < c.depth
    · rw [if_pos hroom]
      exact Or.inl ⟨rfl, hroom⟩
    · rw [if_neg hroom]
      exact Or.inr (Or.inr ⟨rfl, Nat.le_of_not_lt hroom⟩)

/-! ## Steps of a channel -/

namespace TransportRun

variable {r : TransportRun} {m : Address} {c : RegisterChannel} {call : RegisterCall}
  {depth : Nat}

/-- What all runs keep: both ends of the transport stay open, and nobody waits longer
than an access may take. -/
structure Sound (depth : Nat) (r : TransportRun) : Prop where
  depth_eq : r.transport.depth = depth
  first : r.transport.first.isOpen = true
  second : r.transport.second.isOpen = true
  deadline_le : ∀ m call deadline, r.session.phase? m = some (.waiting call deadline) →
    deadline ≤ r.clock + r.timeoutMs

/-- The run in which the transport has taken the request of a call. -/
def hand (r : TransportRun) (m : Address) (c : RegisterChannel) (call : RegisterCall) :
    TransportRun :=
  { r.setChannel m { c with phase := .waiting call (r.clock + r.timeoutMs) } with
    transport := { r.transport with
      second := { r.transport.second with
        queue := r.backlog ++ [call.transaction.toRequest m r.session.config.host] } } }

/-- The run in which a call has ended. -/
def finish (r : TransportRun) (m : Address) (c : RegisterChannel) (call : RegisterCall)
    (result : Except SessionError Value) : TransportRun :=
  { r.setChannel m c with ended := r.ended ++ [{ module := m, call, result }] }

theorem step_of_idle (hphase : c.phase = .idle) : r.step m c = r.setChannel m c.take := by
  unfold step
  rw [hphase]

/-- The transport takes a packet of the session if there is room for it. -/
theorem Sound.send_first (h : r.Sound depth) (p : Packet) :
    r.transport.send .first p =
      if r.backlog.length < depth then
        ({ r.transport with
          second := { r.transport.second with queue := r.backlog ++ [p] } }, .done ())
      else (r.transport, .blocked) := by
  obtain ⟨rfl, hfirst, hsecond, -⟩ := h
  simp only [ChannelPair.send_first, hfirst, hsecond, Bool.not_true, Bool.or_self,
    Bool.false_eq_true, if_false]
  rfl

theorem Sound.step_of_room (h : r.Sound depth) (hphase : c.phase = .sending call)
    (hroom : r.backlog.length < depth) : r.step m c = r.hand m c call := by
  unfold step hand
  simp only [hphase, h.send_first, if_pos hroom]
  unfold RegisterChannel.sent
  rw [hphase]

theorem Sound.step_of_full (h : r.Sound depth) (hphase : c.phase = .sending call)
    (hfull : depth ≤ r.backlog.length) : r.step m c = r := by
  unfold step
  simp only [hphase, h.send_first, if_neg (Nat.not_lt.mpr hfull)]

/-- A channel that waits for an answer goes on waiting, or ends its call. -/
theorem step_of_waiting (r : TransportRun) (m : Address) {deadline : Nat}
    (hphase : c.phase = .waiting call deadline) :
    (r.step m c = r ∧ r.clock < deadline) ∨
      ∃ c' result, r.step m c = r.finish m c' call result ∧ c'.phase = .idle ∧
        (c.responses = [] → c' = { c with phase := .idle } ∧
          result = .error (.timeout m call.transaction.address)) := by
  unfold step RegisterChannel.conclude
  simp only [hphase]
  cases hresponses : c.responses with
  | cons p rest =>
    right
    exact ⟨{ c with responses := rest, phase := .idle }, _, rfl, rfl, nofun⟩
  | nil =>
    by_cases htime : deadline ≤ r.clock
    · right
      rw [if_pos htime]
      exact ⟨_, _, rfl, rfl, fun _ => ⟨rfl, rfl⟩⟩
    · left
      rw [if_neg htime]
      exact ⟨rfl, Nat.lt_of_not_le htime⟩

/-- All that a step of a channel can be. -/
theorem Sound.step_cases (h : r.Sound depth) (m : Address) (c : RegisterChannel) :
    (c.phase = .idle ∧ r.step m c = r.setChannel m c.take) ∨
    (∃ call, c.phase = .sending call ∧ r.backlog.length < depth ∧
      r.step m c = r.hand m c call) ∨
    (∃ call deadline c' result, c.phase = .waiting call deadline ∧ c'.phase = .idle ∧
      r.step m c = r.finish m c' call result) ∨
    r.step m c = r := by
  cases hphase : c.phase with
  | idle => exact Or.inl ⟨rfl, step_of_idle hphase⟩
  | sending call =>
    by_cases hroom : r.backlog.length < depth
    · exact Or.inr (Or.inl ⟨call, rfl, hroom, h.step_of_room hphase hroom⟩)
    · exact Or.inr (Or.inr (Or.inr (h.step_of_full hphase (Nat.le_of_not_lt hroom))))
  | waiting call deadline =>
    rcases step_of_waiting r m hphase with ⟨hstep, -⟩ | ⟨c', result, hstep, hidle, -⟩
    · exact Or.inr (Or.inr (Or.inr hstep))
    · exact Or.inr (Or.inr (Or.inl ⟨call, deadline, c', result, rfl, hidle, hstep⟩))

/-! ## All runs -/

theorem act_work (hc : r.session.channel? m = some c) : r.act (.work m) = r.step m c := by
  simp only [act, hc]

/-- One channel is set, and does not wait for too long; the others go on with what they did. -/
theorem Sound.setChannel (h : r.Sound depth) (hc : r.session.channel? m = some c)
    {c' : RegisterChannel} {transport : ChannelPair} {ended : List EndedCall}
    (hdepth : transport.depth = r.transport.depth)
    (hfirst : transport.first.isOpen = r.transport.first.isOpen)
    (hsecond : transport.second.isOpen = r.transport.second.isOpen)
    (hphase : ∀ call deadline, c'.phase = .waiting call deadline →
      deadline ≤ r.clock + r.timeoutMs) :
    Sound depth { r.setChannel m c' with transport, ended } where
  depth_eq := hdepth.trans h.depth_eq
  first := hfirst.trans h.first
  second := hsecond.trans h.second
  deadline_le m' call deadline hwaiting := by
    by_cases hm : m = m'
    · subst hm
      have hset := (Session.phase?_setChannel hc c').symm.trans hwaiting
      exact hphase call deadline (Option.some.inj hset)
    · have hbefore := (Session.phase?_setChannel_of_ne hm r.session c').symm.trans hwaiting
      exact h.deadline_le m' call deadline hbefore

theorem take_phase (hphase : c.phase = .idle) :
    c.take.phase = .idle ∨ ∃ call, c.take.phase = .sending call := by
  unfold RegisterChannel.take
  rw [hphase]
  cases c.calls with
  | nil => exact Or.inl hphase
  | cons call calls => exact Or.inr ⟨call, rfl⟩

theorem Sound.work (h : r.Sound depth) (hc : r.session.channel? m = some c) :
    (r.step m c).Sound depth := by
  rcases h.step_cases m c with ⟨hidle, hstep⟩ | ⟨call, hsending, hroom, hstep⟩ |
    ⟨call, deadline, c', result, hwaiting, hidle, hstep⟩ | hstep
  · rw [hstep]
    refine h.setChannel hc rfl rfl rfl fun call deadline hphase => ?_
    rcases take_phase hidle with htaken | ⟨call', htaken⟩
    · rw [htaken] at hphase
      cases hphase
    · rw [htaken] at hphase
      cases hphase
  · rw [hstep]
    refine h.setChannel hc rfl rfl rfl fun call' deadline hphase => ?_
    cases hphase
    exact Nat.le_refl _
  · rw [hstep]
    refine h.setChannel hc rfl rfl rfl fun call' deadline' hphase => ?_
    rw [hidle] at hphase
    cases hphase
  · rw [hstep]
    exact h

theorem receive_frame (c : ChannelPair) :
    (c.receive .second).1.depth = c.depth ∧
      (c.receive .second).1.first.isOpen = c.first.isOpen ∧
      (c.receive .second).1.second.isOpen = c.second.isOpen := by
  unfold ChannelPair.receive
  simp only
  split
  · exact ⟨rfl, rfl, rfl⟩
  · split <;> exact ⟨rfl, rfl, rfl⟩

theorem Sound.act (h : r.Sound depth) (event : TransportEvent) : (r.act event).Sound depth := by
  cases event with
  | submit m call =>
    refine ⟨h.depth_eq, h.first, h.second, fun m' call' deadline hwaiting => ?_⟩
    rcases Session.phase?_of_submit hwaiting with hbefore | hidle
    · exact h.deadline_le m' call' deadline hbefore
    · cases hidle
  | work m =>
    simp only [TransportRun.act]
    split
    · rename_i c hc
      exact h.work hc
    · exact h
  | arrive p =>
    refine ⟨h.depth_eq, h.first, h.second, fun m call deadline hwaiting => ?_⟩
    have hbefore := (r.session.phase?_dispatch p m).symm.trans hwaiting
    have htimeout : (r.act (.arrive p)).timeoutMs = r.timeoutMs :=
      congrArg SessionConfig.registerTimeoutMs (r.session.undisturbed_dispatch p).config
    rw [htimeout]
    exact h.deadline_le m call deadline hbefore
  | receive =>
    obtain ⟨hdepth, hfirst, hsecond⟩ := receive_frame r.transport
    exact ⟨hdepth.trans h.depth_eq, hfirst.trans h.first, hsecond.trans h.second, h.deadline_le⟩
  | elapse ms =>
    refine ⟨h.depth_eq, h.first, h.second, fun m call deadline hwaiting => ?_⟩
    have hbefore := h.deadline_le m call deadline hwaiting
    show deadline ≤ r.clock + ms + r.timeoutMs
    omega

theorem Sound.after (h : r.Sound depth) (events : List TransportEvent) :
    (r.after events).Sound depth := by
  induction events generalizing r with
  | nil => exact h
  | cons event events ih => exact ih (h.act event)

theorem sound_ofEvents (s : Session) (depth : Nat) (events : List TransportEvent) :
    (ofEvents s depth events).Sound depth := by
  have hfresh : Sound depth { session := s.openConnection, transport := { depth } } :=
    ⟨rfl, rfl, rfl, fun _ _ _ hwaiting => by cases hwaiting⟩
  exact hfresh.after events

end TransportRun

/-! ## Clocks and lines -/

namespace Agenda

variable (a : Agenda)

@[simp] theorem clock_wake (t : Task) : (a.wake t).clock = a.clock := by
  unfold wake
  split <;> split <;> rfl

@[simp] theorem clock_wakeAll (ts : List Task) : (a.wakeAll ts).clock = a.clock := by
  induction ts generalizing a with
  | nil => rfl
  | cons t ts ih => exact (ih (a.wake t)).trans (a.clock_wake t)

@[simp] theorem clock_ring (b : Bell) : (a.ring b).clock = a.clock := by
  unfold ring
  split
  · exact clock_wake _ _
  · rfl

@[simp] theorem clock_giveWay (t : Task) : (a.giveWay t).clock = a.clock := by
  unfold giveWay
  split <;> rfl

@[simp] theorem clock_listen (b : Bell) : (a.listen b).clock = a.clock := by
  unfold listen
  split <;> rfl

end Agenda

namespace Line

variable {κ : Type} [DecidableEq κ] {l l' : Line κ} {room : Nat} {k : κ}

/-- A place that somebody gets is one of those that were kept or free. -/
theorem length_called_of_enter (h : l.enter room k = (l', true)) (hkept : l.called.length ≤ room) :
    l'.called.length + 1 ≤ room := by
  unfold enter at h
  split at h
  · rename_i hmem
    obtain ⟨rfl, -⟩ := Prod.mk.inj h
    have hpos : 0 < l.called.length := List.length_pos_of_mem hmem
    show (l.called.erase k).length + 1 ≤ room
    rw [List.length_erase_of_mem hmem]
    omega
  · split at h
    · cases (Prod.mk.inj h).2
    · split at h
      · rename_i hroom
        obtain ⟨rfl, -⟩ := Prod.mk.inj h
        exact hroom
      · cases (Prod.mk.inj h).2

theorem called_of_enter (h : l.enter room k = (l', false)) : l'.called = l.called := by
  unfold enter at h
  split at h
  · cases (Prod.mk.inj h).2
  · split at h
    · obtain ⟨rfl, -⟩ := Prod.mk.inj h
      rfl
    · split at h
      · cases (Prod.mk.inj h).2
      · obtain ⟨rfl, -⟩ := Prod.mk.inj h
        rfl

end Line

/-! ## Turns -/

namespace Executive

variable {α : Type} {x y : Executive α}

/-- What the register channels see of an executive. -/
def outlook (x : Executive α) : Session × ChannelPair × Line Task × Nat :=
  (x.session, x.transport, x.lineToTarget, x.clock)

theorem outlook_plan (x : Executive α) {f : Agenda → Agenda}
    (hf : (f x.agenda).clock = x.agenda.clock) : (x.plan f).outlook = x.outlook := by
  unfold outlook clock plan
  rw [hf]

theorem outlook_wakeAll (x : Executive α) (ts : List Task) : (x.wakeAll ts).outlook = x.outlook :=
  outlook_plan x (Agenda.clock_wakeAll _ _)

theorem outlook_conclude (x : Executive α) (id : Nat) (r : Except SessionError Value) :
    (x.conclude id r).outlook = x.outlook := by
  unfold conclude
  split
  · exact outlook_plan _ (Agenda.clock_ring _ _)
  · rfl

theorem outlook_awaitAnswer (x : Executive α) (m : Address) (c : RegisterChannel) :
    (x.awaitAnswer m c).outlook = x.outlook := by
  have hlistens : (x.plan (·.listen (.answers m))).outlook = x.outlook :=
    outlook_plan x (Agenda.clock_listen _ _)
  unfold awaitAnswer
  dsimp only
  split
  · split
    · exact hlistens
    · exact (outlook_plan _ rfl).trans hlistens
  · exact hlistens

/-- No more places in the queue to the target are kept than are free. -/
def KeepsPlaces (x : Executive α) : Prop :=
  x.lineToTarget.called.length + x.transport.second.queue.length ≤ x.transport.depth

/-- Somebody hands a packet to the transport, finds it closed, or waits. -/
theorem put_cases (h : x.KeepsPlaces) (p : Packet) (who : Task) :
    ∃ y attempt, x.put .first p who = (y, attempt) ∧ y.KeepsPlaces ∧ y.session = x.session ∧
      y.clock = x.clock ∧
      ((attempt = .done () ∧ x.transport.send .first p = (y.transport, .done ())) ∨
        (∃ e transport, attempt = .failed e ∧
          x.transport.send .first p = (transport, .failed e) ∧ y.transport = x.transport) ∨
        attempt = .blocked ∧ y.transport = x.transport) := by
  unfold KeepsPlaces at h
  let room := x.transport.depth - x.transport.second.queue.length
  have hgets : ∀ line, x.lineToTarget.enter room who = (line, true) →
      line.called.length + 1 ≤ room := by
    intro line henter
    refine Line.length_called_of_enter henter ?_
    show x.lineToTarget.called.length ≤ x.transport.depth - x.transport.second.queue.length
    omega
  have hwaits : ∀ line, x.lineToTarget.enter room who = (line, false) →
      (x.setSenders line .first).KeepsPlaces := by
    intro line henter
    show line.called.length + x.transport.second.queue.length ≤ x.transport.depth
    rw [Line.called_of_enter henter]
    exact h
  unfold put
  split
  · exact ⟨_, _, rfl, h, rfl, Agenda.clock_giveWay _ _, Or.inr (Or.inr ⟨rfl, rfl⟩)⟩
  · dsimp only
    rcases x.transport.send_first_cases p with ⟨hsend, hroom⟩ | hsend | ⟨hsend, hfull⟩
    · rw [hsend]
      dsimp only [senders]
      split
      · rename_i line henter
        have hplace := hgets line henter
        refine ⟨_, _, rfl, ?_, rfl, Agenda.clock_ring _ _, Or.inl ⟨rfl, rfl⟩⟩
        show line.called.length + (x.transport.second.queue ++ [p]).length ≤ x.transport.depth
        rw [List.length_append, List.length_singleton]
        omega
      · rename_i line henter
        exact ⟨_, _, rfl, hwaits line henter, rfl, rfl, Or.inr (Or.inr ⟨rfl, rfl⟩)⟩
    · rw [hsend]
      exact ⟨_, _, rfl, h, rfl, rfl, Or.inr (Or.inl ⟨_, _, rfl, rfl, rfl⟩)⟩
    · -- No place is kept when none is free.
      rw [hsend]
      dsimp only [senders]
      split
      · rename_i line henter
        have hplace := hgets line henter
        omega
      · rename_i line henter
        exact ⟨_, _, rfl, hwaits line henter, rfl, rfl, Or.inr (Or.inr ⟨rfl, rfl⟩)⟩

/-- The run has come to where the executive is. -/
structure Follows (r : TransportRun) (x : Executive α) : Prop where
  session : r.session = x.session
  transport : r.transport = x.transport
  clock : r.clock = x.clock

theorem Follows.of_outlook {r : TransportRun} (h : Follows r x) (heq : y.outlook = x.outlook) :
    Follows r y := by
  simp only [outlook, Prod.mk.injEq] at heq
  obtain ⟨hsession, htransport, -, hclock⟩ := heq
  exact ⟨h.session.trans hsession.symm, h.transport.trans htransport.symm,
    h.clock.trans hclock.symm⟩

theorem Follows.setChannel {r : TransportRun} (h : Follows r x) (m : Address)
    (c : RegisterChannel) : Follows (r.setChannel m c) (x.setChannel m c) :=
  ⟨congrArg (Session.setChannel · m c) h.session, h.transport, h.clock⟩

theorem KeepsPlaces.of_outlook (h : x.KeepsPlaces) (heq : y.outlook = x.outlook) :
    y.KeepsPlaces := by
  simp only [outlook, Prod.mk.injEq] at heq
  obtain ⟨-, htransport, hline, -⟩ := heq
  unfold KeepsPlaces
  rw [htransport, hline]
  exact h

/-- A turn of a register channel is a series of its steps. -/
theorem turnChannel_steps (m : Address) (fuel : Nat) (x : Executive α) (r : TransportRun)
    (h : Follows r x) (hplaces : x.KeepsPlaces) :
    ∃ n, Follows (r.after (List.replicate n (.work m))) (turnChannel m fuel x) := by
  -- On the steps of the turn.
  induction fuel generalizing x r with
  | zero => exact ⟨0, h⟩
  | succ fuel ih =>
    have hmore : ∀ y : Executive α, Follows (r.act (.work m)) y → y.KeepsPlaces →
        ∃ n, Follows (r.after (List.replicate n (.work m))) (turnChannel m fuel y) := by
      intro y hy hplaces
      obtain ⟨n, hn⟩ := ih y _ hy hplaces
      exact ⟨n + 1, hn⟩
    unfold turnChannel
    split
    · exact ⟨0, h⟩
    · rename_i c hc
      have hwork : r.act (.work m) = r.step m c := TransportRun.act_work (h.session ▸ hc)
      split
      · exact ⟨0, h.of_outlook (outlook_plan _ (Agenda.clock_giveWay _ _))⟩
      · split
        · rename_i hphase
          split
          · exact ⟨0, h.of_outlook (outlook_plan _ (Agenda.clock_listen _ _))⟩
          · have htaken : (x.takeCall m c).outlook = (x.setChannel m c.take).outlook :=
              outlook_wakeAll _ _
            refine hmore _ ?_ (hplaces.of_outlook (x := x.setChannel m c.take) htaken)
            rw [hwork, TransportRun.step_of_idle hphase]
            exact (h.setChannel m c.take).of_outlook htaken
        · rename_i call hphase
          obtain ⟨y, attempt, hput, hkeeps, hsession, hclock, hattempt⟩ := put_cases hplaces
            (call.transaction.toRequest m x.session.config.host) (.channel m)
          simp only [hput]
          rcases hattempt with ⟨rfl, hsend⟩ | ⟨e, transport, rfl, hsend, htransport⟩ |
            ⟨rfl, htransport⟩
          · refine hmore (y.setChannel m _) ?_ hkeeps
            rw [hwork]
            unfold TransportRun.step TransportRun.timeoutMs
            simp only [hphase, h.session, h.transport, hsend]
            rw [h.clock, ← hclock, ← hsession]
            exact ⟨congrArg (Session.setChannel · m _) (h.session.trans hsession.symm), rfl,
              h.clock.trans hclock.symm⟩
          · have hended : ((y.setChannel m (c.refuse e).1).conclude call.id
                (.error (.transport e))).outlook = (y.setChannel m (c.refuse e).1).outlook :=
              outlook_conclude _ _ _
            refine hmore _ ?_ (KeepsPlaces.of_outlook (x := y.setChannel m _) hkeeps hended)
            rw [hwork]
            unfold TransportRun.step
            simp only [hphase, h.session, h.transport, hsend]
            refine Follows.of_outlook (x := y.setChannel m (c.refuse e).1) ?_ hended
            exact ⟨congrArg (Session.setChannel · m _) (h.session.trans hsession.symm),
              h.transport.trans htransport.symm, h.clock.trans hclock.symm⟩
          · exact ⟨0, h.session.trans hsession.symm, h.transport.trans htransport.symm,
              h.clock.trans hclock.symm⟩
        · rename_i call deadline hphase
          split
          · rename_i c' call' result hended
            have hended' : (x.endCall m c' call' result).outlook = (x.setChannel m c').outlook :=
              outlook_conclude _ _ _
            refine hmore _ ?_ (hplaces.of_outlook (x := x.setChannel m c') hended')
            rw [hwork]
            unfold TransportRun.step
            simp only [hphase, h.clock, hended]
            have hset := h.setChannel m c'
            exact Follows.of_outlook (x := x.setChannel m c')
              ⟨hset.session, hset.transport, hset.clock⟩ hended'
          · exact ⟨0, h.of_outlook (outlook_awaitAnswer _ _ _)⟩

end Executive

end ProbeNet
