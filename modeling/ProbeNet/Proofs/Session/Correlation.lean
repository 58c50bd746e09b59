import Mathlib.Data.List.Induction
import ProbeNet.Session.State

/-!
# Which answer ends a call

An answer does not say which request it is for.  A register channel takes the
first answer that comes in after it has thrown away those that were there when it
took the call, so the answer to a request that was given up may end a later call.

A `ChannelRun` is a session in which one channel works.  Its events come in any
order; next to the session it keeps what no party knows, which answer is for which
request.  `call_answered_by_own_iff` says when a call is ended by the answer to its
own request, and `own_answer_of_no_timeout` that this is so as long as no call has
been given up.
-/

namespace ProbeNet

open Register

/-- An answer of the target, and the number of the request that it is for. -/
structure Answer where
  request : Nat
  packet : Packet
  deriving DecidableEq, Repr

/-- The end of a call. -/
structure CallEnd where
  call : RegisterCall
  /-- The number of its request. -/
  request : Nat
  /-- The answers that came in after the channel had taken the call. -/
  arrived : List Answer
  /-- The answer that the result was made from, if it was made from one. -/
  answer : Option Answer
  result : Except SessionError Value
  deriving DecidableEq

/-- The module has granted or refused the access of the call. -/
def CallEnd.Served (m : Address) (e : CallEnd) : Prop :=
  (∃ v, e.result = .ok v) ∨ ∃ address, e.result = .error (.deviceError m address)

/-- The call was given up. -/
def CallEnd.TimedOut (m : Address) (e : CallEnd) : Prop :=
  ∃ address, e.result = .error (.timeout m address)

/-- The call was ended by the answer to its own request. -/
def CallEnd.Own (e : CallEnd) : Prop := ∃ a, e.answer = some a ∧ a.request = e.request

/-- What happens around the register channel of a module. -/
inductive ChannelEvent where
  /-- Somebody calls. -/
  | submit (call : RegisterCall)
  /-- The channel takes the next call. -/
  | take
  /-- The transport takes the request. -/
  | send (deadline : Nat)
  /-- The transport refuses the request. -/
  | refuse (e : TransportError)
  /-- The answer of the module to a request comes in. -/
  | answer (request : Nat) (p : Packet)
  /-- Any other packet comes in. -/
  | other (p : Packet)
  /-- The channel looks for the end of its call. -/
  | conclude (now : Nat)

/-- A session, and what has become of the requests of one channel.  They are
numbered in the order in which they were sent. -/
structure ChannelRun where
  session : Session
  /-- The calls whose requests were sent. -/
  asked : List RegisterCall := []
  /-- The first request that may still be answered. -/
  next : Nat := 0
  /-- The answers in the queue of the channel. -/
  queue : List Answer := []
  /-- The answers that came in after the channel had last taken a call. -/
  arrived : List Answer := []
  ended : List CallEnd := []

namespace ChannelRun

/-- The run after an event.  Requests are answered in order and at most once. -/
def step (m : Address) (r : ChannelRun) (c : RegisterChannel) : ChannelEvent → ChannelRun
  | .submit call => { r with session := r.session.submit m call }
  | .take =>
    match c.phase, c.calls with
    | .idle, _ :: _ =>
      { r with session := r.session.setChannel m c.take, queue := [], arrived := [] }
    | _, _ => r
  | .send deadline =>
    match c.phase with
    | .sending call =>
      { r with session := r.session.setChannel m (c.sent deadline), asked := r.asked ++ [call] }
    | _ => r
  | .refuse e =>
    match c.refuse e with
    | (c, some (call, result)) =>
      { r with
        session := r.session.setChannel m c
        ended := r.ended ++ [{
          call, request := r.asked.length, arrived := r.arrived, answer := none, result }] }
    | (_, none) => r
  | .answer request p =>
    if r.next ≤ request ∧ request < r.asked.length ∧ p.src = m ∧ p.packetClass = .register then
      { r with
        session := (r.session.dispatch p).1
        next := request + 1
        queue :=
          if c.responses.length < responseQueueDepth then r.queue ++ [{ request, packet := p }]
          else r.queue
        arrived := r.arrived ++ [{ request, packet := p }] }
    else r
  | .other p =>
    if p.src = m ∧ p.packetClass = .register then r
    else { r with session := (r.session.dispatch p).1 }
  | .conclude now =>
    match c.conclude m now with
    | (c, some (call, result)) =>
      { r with
        session := r.session.setChannel m c
        queue := r.queue.tail
        ended := r.ended ++ [{
          call, request := r.asked.length - 1, arrived := r.arrived
          answer := r.queue.head?, result }] }
    | (_, none) => r

/-- The run after an event, as long as there is a channel. -/
def act (m : Address) (r : ChannelRun) (event : ChannelEvent) : ChannelRun :=
  match r.session.channel? m with
  | some c => r.step m c event
  | none => r

/-- The run of some events around the channel of a module. -/
def ofEvents (s : Session) (m : Address) (events : List ChannelEvent) : ChannelRun :=
  events.foldl (act m) { session := s }

end ChannelRun

/-! ## The channel of a module in a session -/

namespace Session

variable {s : Session} {m : Address} {c : RegisterChannel}

theorem channel?_setChannel (h : s.channel? m = some c) (c' : RegisterChannel) :
    (s.setChannel m c').channel? m = some c' := by
  unfold channel? setChannel at *
  cases hconnection : s.connection with
  | none =>
    rw [hconnection] at h
    cases h
  | some n =>
    show (n.channels.insert m c').find? m = some c'
    rw [Table.find?_insert, if_pos rfl]

theorem channel?_submit (h : s.channel? m = some c) (call : RegisterCall) :
    (s.submit m call).channel? m = some (c.submit call) := by
  unfold submit
  rw [channel?_setChannel h, h]
  rfl

/-- A register packet of a module is put into the queue of its channel. -/
theorem channel?_dispatch_answer (h : s.channel? m = some c) {p : Packet} (hsrc : p.src = m)
    (hclass : p.packetClass = .register) : (s.dispatch p).1.channel? m = some (c.route p) := by
  have hroute : (s.dispatch p).1 = s.setChannel m (c.route p) := by
    unfold dispatch routeResponse
    rw [hclass, hsrc]
    simp only [h]
  rw [hroute, channel?_setChannel h]

theorem channel?_deliver (p : Packet) : (s.deliver p).1.channel? m = s.channel? m := by
  obtain ⟨events, hdeliver⟩ := s.deliver_fst p
  rw [hdeliver]
  rfl

theorem channel?_joinEvent (p : Packet) : (s.joinEvent p).1.channel? m = s.channel? m := by
  unfold joinEvent
  split
  · rfl
  · rename_i n hconnection
    have hkeeps : ∀ reassembler, ({ s with connection := some { n with reassembler } } :
        Session).channel? m = s.channel? m := by
      intro reassembler
      unfold channel?
      rw [hconnection]
      rfl
    simp only
    split
    · rw [channel?_deliver, hkeeps]
    · exact hkeeps _
    · exact hkeeps _

/-- All other packets leave the channel as it is. -/
theorem channel?_dispatch_other {p : Packet} (hother : ¬ (p.src = m ∧ p.packetClass = .register)) :
    (s.dispatch p).1.channel? m = s.channel? m := by
  unfold dispatch
  split
  · rename_i hclass
    have hne : p.src ≠ m := fun hsrc => hother ⟨hsrc, hclass⟩
    unfold routeResponse
    split
    · rename_i c hc
      unfold channel? setChannel
      cases s.connection with
      | none => rfl
      | some n =>
        show (n.channels.insert p.src (c.route p)).find? m = n.channels.find? m
        rw [Table.find?_insert, if_neg hne]
    · rfl
  · exact channel?_joinEvent p
  · exact channel?_deliver p
  · exact channel?_deliver p

end Session

/-! ## Steps of a channel -/

namespace RegisterChannel

theorem refuse_cases (c : RegisterChannel) (e : TransportError) :
    c.refuse e = (c, none) ∨ ∃ call, c.phase = .sending call ∧
      c.refuse e = ({ c with phase := .idle }, some (call, .error (.transport e))) := by
  cases hphase : c.phase with
  | idle => exact Or.inl (by simp only [refuse, hphase])
  | sending call => exact Or.inr ⟨call, rfl, by simp only [refuse, hphase]⟩
  | waiting call deadline => exact Or.inl (by simp only [refuse, hphase])

/-- A channel that waits for an answer takes the first one that is there, or gives
the call up when the time is over. -/
theorem conclude_cases (c : RegisterChannel) (m : Address) (now : Nat) :
    c.conclude m now = (c, none) ∨
    (∃ call deadline p rest, c.phase = .waiting call deadline ∧ c.responses = p :: rest ∧
      c.conclude m now = ({ c with responses := rest, phase := .idle },
        some (call, checkResponse m call.transaction p))) ∨
    ∃ call deadline, c.phase = .waiting call deadline ∧ c.responses = [] ∧ deadline ≤ now ∧
      c.conclude m now = ({ c with phase := .idle },
        some (call, .error (.timeout m call.transaction.address))) := by
  cases hphase : c.phase with
  | idle => exact Or.inl (by simp only [conclude, hphase])
  | sending call => exact Or.inl (by simp only [conclude, hphase])
  | waiting call deadline =>
    cases hresponses : c.responses with
    | cons p rest =>
      exact Or.inr (Or.inl ⟨call, deadline, p, rest, rfl, rfl,
        by simp only [conclude, hphase, hresponses]⟩)
    | nil =>
      by_cases htime : deadline ≤ now
      · exact Or.inr (Or.inr ⟨call, deadline, rfl, rfl, htime,
          by simp only [conclude, hphase, hresponses, if_pos htime]⟩)
      · exact Or.inl (by simp only [conclude, hphase, hresponses, if_neg htime])

end RegisterChannel

/-! ## What a run knows -/

/-- A call that the module has served was ended by the first answer that came in
after it was taken, and nothing came in for a request behind its own. -/
def CallEnd.Explained (m : Address) (asked : List RegisterCall) (e : CallEnd) : Prop :=
  e.Served m → asked[e.request]? = some e.call ∧ ∃ a, e.answer = some a ∧ a ∈ e.arrived ∧
    e.result = checkResponse m e.call.transaction a.packet ∧
    ∀ b ∈ e.arrived, a.request ≤ b.request ∧ b.request ≤ e.request

/-- What is known of a call stays true when further requests are sent. -/
theorem CallEnd.Explained.mono {m : Address} {asked : List RegisterCall} {e : CallEnd}
    (h : e.Explained m asked) (call : RegisterCall) : e.Explained m (asked ++ [call]) := by
  intro hserved
  obtain ⟨hasked, hanswer⟩ := h hserved
  exact ⟨by rw [List.getElem?_append_left (List.getElem?_eq_some_iff.mp hasked).1, hasked], hanswer⟩

namespace ChannelRun

/-- Every request but the one of the call in hand has been answered, and nothing
came in for an earlier one since. -/
def Prompt (r : ChannelRun) : ChannelPhase → Prop
  | .idle => r.next = r.asked.length
  | .sending _ => r.next = r.asked.length ∧ r.arrived = []
  | .waiting _ _ => r.next + 1 = r.asked.length ∧ r.arrived = [] ∨
    r.next = r.asked.length ∧ ∃ a, r.arrived = [a] ∧ a.request + 1 = r.asked.length

/-- The run keeps account of the channel `c` of the module. -/
structure Correlates (m : Address) (r : ChannelRun) (c : RegisterChannel) : Prop where
  channel : r.session.channel? m = some c
  queue : r.queue.map Answer.packet = c.responses
  first : c.phase ≠ .idle → r.queue.head? = r.arrived.head?
  waits : ∀ call deadline, c.phase = .waiting call deadline → r.asked.getLast? = some call
  order : r.arrived.Pairwise fun a b => a.request < b.request
  past : ∀ a ∈ r.arrived, a.request < r.next
  next : r.next ≤ r.asked.length
  ended : ∀ e ∈ r.ended, e.Explained m r.asked
  prompt : (∀ e ∈ r.ended, ¬ e.TimedOut m) → r.Prompt c.phase
  own : (∀ e ∈ r.ended, ¬ e.TimedOut m) → ∀ e ∈ r.ended, e.Served m → e.Own

variable {m : Address} {r : ChannelRun} {c : RegisterChannel}

theorem correlates_initial {s : Session} (h : s.channel? m = some {}) :
    Correlates m { session := s } {} :=
  ⟨h, rfl, fun _ => rfl, by simp, .nil, by simp, Nat.le_refl 0, by simp, fun _ => rfl, by simp⟩

/-- The channel ends its call and has no other one in hand. -/
theorem Correlates.close (h : Correlates m r c) {c' : RegisterChannel} {queue : List Answer}
    {e : CallEnd} (hqueue : queue.map Answer.packet = c'.responses) (hphase : c'.phase = .idle)
    (hexplained : e.Explained m r.asked)
    (hprompt : r.Prompt c.phase → ¬ e.TimedOut m →
      r.next = r.asked.length ∧ (e.Served m → e.Own)) :
    Correlates m { r with
      session := r.session.setChannel m c'
      queue := queue
      ended := r.ended ++ [e] } c' := by
  have hended : ∀ e' ∈ r.ended ++ [e], e' ∈ r.ended ∨ e' = e := by
    intro e' he'
    rcases List.mem_append.mp he' with he' | he'
    · exact Or.inl he'
    · exact Or.inr (List.mem_singleton.mp he')
  have hbefore : (∀ e' ∈ r.ended ++ [e], ¬ e'.TimedOut m) → ∀ e' ∈ r.ended, ¬ e'.TimedOut m :=
    fun hnone e' he' => hnone e' (List.mem_append_left _ he')
  have hlast : (∀ e' ∈ r.ended ++ [e], ¬ e'.TimedOut m) →
      r.next = r.asked.length ∧ (e.Served m → e.Own) := fun hnone =>
    hprompt (h.prompt (hbefore hnone)) (hnone e (List.mem_append_right _ List.mem_cons_self))
  refine { h with
    channel := Session.channel?_setChannel h.channel c'
    queue := hqueue
    first := fun hne => absurd hphase hne
    waits := by simp [hphase]
    ended := fun e' he' => ?_
    prompt := fun hnone => by rw [hphase]; exact (hlast hnone).1
    own := fun hnone e' he' => ?_ }
  · rcases hended e' he' with he' | rfl
    · exact h.ended e' he'
    · exact hexplained
  · rcases hended e' he' with he' | rfl
    · exact h.own (hbefore hnone) e' he'
    · exact (hlast hnone).2

theorem Correlates.take (h : Correlates m r c) :
    ∃ c', Correlates m (r.step m c .take) c' := by
  simp only [step]
  split
  · rename_i call calls hphase hcalls
    refine ⟨c.take, { h with
      channel := Session.channel?_setChannel h.channel _
      queue := ?_
      first := fun _ => rfl
      waits := ?_
      order := .nil
      past := by simp
      prompt := fun hnone => ?_ }⟩
    · simp [RegisterChannel.take, hphase, hcalls]
    · simp [RegisterChannel.take, hphase, hcalls]
    · have hprompt := h.prompt hnone
      rw [hphase] at hprompt
      have htaken : c.take.phase = .sending call := by
        simp only [RegisterChannel.take, hphase, hcalls]
      rw [htaken]
      exact ⟨hprompt, rfl⟩
  · exact ⟨c, h⟩

theorem Correlates.send (h : Correlates m r c) (deadline : Nat) :
    ∃ c', Correlates m (r.step m c (.send deadline)) c' := by
  simp only [step]
  split
  · rename_i call hphase
    have hsent : c.sent deadline = { c with phase := .waiting call deadline } := by
      simp only [RegisterChannel.sent, hphase]
    refine ⟨c.sent deadline, { h with
      channel := Session.channel?_setChannel h.channel _
      queue := by rw [hsent]; exact h.queue
      first := fun _ => h.first (by simp [hphase])
      waits := ?_
      next := ?_
      ended := fun e he => (h.ended e he).mono call
      prompt := fun hnone => ?_ }⟩
    · intro call' deadline' hwaiting
      rw [hsent] at hwaiting
      obtain ⟨rfl, -⟩ := ChannelPhase.waiting.inj hwaiting
      exact List.getLast?_concat
    · show r.next ≤ (r.asked ++ [call]).length
      rw [List.length_append]
      exact Nat.le_add_right_of_le h.next
    · have hprompt := h.prompt hnone
      rw [hphase] at hprompt
      obtain ⟨hnext, harrived⟩ := hprompt
      rw [hsent]
      refine Or.inl ⟨?_, harrived⟩
      show r.next + 1 = (r.asked ++ [call]).length
      rw [List.length_append, hnext]
      rfl
  · exact ⟨c, h⟩

theorem Correlates.refuse (h : Correlates m r c) (e : TransportError) :
    ∃ c', Correlates m (r.step m c (.refuse e)) c' := by
  rcases c.refuse_cases e with hstep | ⟨call, hphase, hstep⟩
  · simp only [step, hstep]
    exact ⟨c, h⟩
  · simp only [step, hstep]
    have hrefused : ¬ CallEnd.Served m
        { call
          request := r.asked.length
          arrived := r.arrived
          answer := none
          result := .error (.transport e) } := by
      rintro (⟨v, hv⟩ | ⟨address, herror⟩)
      · cases hv
      · cases herror
    refine ⟨{ c with phase := .idle }, h.close h.queue rfl
      (fun hserved => absurd hserved hrefused) fun hprompt _ => ?_⟩
    rw [hphase] at hprompt
    exact ⟨hprompt.1, fun hserved => absurd hserved hrefused⟩

theorem Prompt.answer {phase : ChannelPhase} (h : r.Prompt phase) {session : Session}
    {queue : List Answer} {request : Nat} {p : Packet} (hnext : r.next ≤ request)
    (hasked : request < r.asked.length) :
    Prompt { r with
      session := session
      next := request + 1
      queue := queue
      arrived := r.arrived ++ [{ request, packet := p }] } phase := by
  cases phase with
  | idle =>
    have hsame : r.next = r.asked.length := h
    omega
  | sending call =>
    have hsame : r.next = r.asked.length := h.1
    omega
  | waiting call deadline =>
    rcases h with ⟨hbefore, harrived⟩ | ⟨hsame, -⟩
    · refine Or.inr ⟨?_, { request, packet := p }, ?_, ?_⟩
      · show request + 1 = r.asked.length
        omega
      · show r.arrived ++ _ = _
        rw [harrived]
        rfl
      · show request + 1 = r.asked.length
        omega
    · omega

/-- An answer is the first of both lists, or of neither. -/
theorem Correlates.answer (h : Correlates m r c) (request : Nat) (p : Packet) :
    ∃ c', Correlates m (r.step m c (.answer request p)) c' := by
  simp only [step]
  split
  · rename_i hanswer
    obtain ⟨hnext, hasked, hsrc, hclass⟩ := hanswer
    have hphase : (c.route p).phase = c.phase := by
      unfold RegisterChannel.route
      split <;> rfl
    refine ⟨c.route p, { h with
      channel := Session.channel?_dispatch_answer h.channel hsrc hclass
      queue := ?_
      first := ?_
      waits := fun call deadline => by rw [hphase]; exact h.waits call deadline
      order := ?_
      past := ?_
      next := hasked
      prompt := fun hnone => ?_ }⟩
    · unfold RegisterChannel.route
      by_cases hroom : c.responses.length < responseQueueDepth
      · simp only [if_pos hroom]
        rw [List.map_append, h.queue]
        rfl
      · simp only [if_neg hroom]
        exact h.queue
    · intro hne
      rw [hphase] at hne
      have hfirst := h.first hne
      -- An answer that is dropped because the queue is full is not the first one.
      cases hqueue : r.queue with
      | nil =>
        rw [hqueue] at hfirst
        have harrived : r.arrived = [] := List.head?_eq_none_iff.mp hfirst.symm
        have hresponses : c.responses = [] := by
          rw [← h.queue, hqueue]
          rfl
        simp [harrived, hresponses, responseQueueDepth]
      | cons a rest =>
        rw [hqueue] at hfirst
        obtain ⟨others, harrived⟩ := List.head?_eq_some_iff.mp hfirst.symm
        simp only [harrived, List.cons_append]
        split <;> rfl
    · refine List.pairwise_append.mpr ⟨h.order, List.pairwise_singleton _ _, fun a ha b hb => ?_⟩
      rw [List.mem_singleton.mp hb]
      exact Nat.lt_of_lt_of_le (h.past a ha) hnext
    · intro a ha
      rcases List.mem_append.mp ha with ha | ha
      · exact Nat.lt_succ_of_lt (Nat.lt_of_lt_of_le (h.past a ha) hnext)
      · rw [List.mem_singleton.mp ha]
        exact Nat.lt_succ_self request
    · rw [hphase]
      exact (h.prompt hnone).answer hnext hasked
  · exact ⟨c, h⟩

/-- The first answer ends the call. -/
theorem Correlates.explained (h : Correlates m r c) {call : RegisterCall} {deadline : Nat}
    {a : Answer} (hphase : c.phase = .waiting call deadline) (hfirst : r.queue.head? = some a) :
    CallEnd.Explained m r.asked
      { call
        request := r.asked.length - 1
        arrived := r.arrived
        answer := r.queue.head?
        result := checkResponse m call.transaction a.packet } := by
  intro _
  have hhead := h.first (by simp [hphase])
  rw [hfirst] at hhead
  obtain ⟨later, harrived⟩ := List.head?_eq_some_iff.mp hhead.symm
  have hlast := h.waits call deadline hphase
  rw [List.getLast?_eq_getElem?] at hlast
  refine ⟨hlast, a, hfirst, List.mem_of_mem_head? hhead.symm, rfl, fun b hb => ⟨?_, ?_⟩⟩
  · have horder := h.order
    replace hb : b ∈ r.arrived := hb
    rw [harrived] at horder hb
    rcases List.mem_cons.mp hb with rfl | hb
    · exact Nat.le_refl _
    · exact Nat.le_of_lt ((List.pairwise_cons.mp horder).1 b hb)
  · have hlt := Nat.lt_of_lt_of_le (h.past b hb) h.next
    show b.request ≤ r.asked.length - 1
    omega

theorem Correlates.conclude (h : Correlates m r c) (now : Nat) :
    ∃ c', Correlates m (r.step m c (.conclude now)) c' := by
  rcases c.conclude_cases m now with hstep | ⟨call, deadline, p, rest, hphase, hresponses, hstep⟩ |
    ⟨call, deadline, hphase, hresponses, -, hstep⟩
  · simp only [step, hstep]
    exact ⟨c, h⟩
  · simp only [step, hstep]
    have hqueue := h.queue
    rw [hresponses] at hqueue
    obtain ⟨a, others, hcons, rfl, hrest⟩ := List.map_eq_cons_iff.mp hqueue
    have hfirst : r.queue.head? = some a := by
      rw [hcons]
      rfl
    refine ⟨{ c with responses := rest, phase := .idle },
      h.close (by rw [hcons]; exact hrest) rfl (h.explained hphase hfirst) fun hprompt _ => ?_⟩
    have hhead := h.first (by simp [hphase])
    rw [hphase] at hprompt
    rcases hprompt with ⟨-, hnil⟩ | ⟨hnext, b, hsingle, hlast⟩
    · rw [hfirst, hnil] at hhead
      cases hhead
    · rw [hfirst, hsingle] at hhead
      obtain rfl : a = b := Option.some.inj hhead
      refine ⟨hnext, fun _ => ⟨a, hfirst, ?_⟩⟩
      show a.request = r.asked.length - 1
      omega
  · simp only [step, hstep]
    have hqueue := h.queue
    rw [hresponses] at hqueue
    have hnil : r.queue = [] := List.map_eq_nil_iff.mp hqueue
    refine ⟨{ c with phase := .idle }, h.close (by rw [hnil, hresponses]; rfl) rfl ?_
      fun _ hnot => absurd ⟨_, rfl⟩ hnot⟩
    rintro (⟨v, hv⟩ | ⟨address, herror⟩)
    · cases hv
    · cases herror

/-- Every event keeps the account. -/
theorem Correlates.act (h : Correlates m r c) (event : ChannelEvent) :
    ∃ c', Correlates m (r.act m event) c' := by
  unfold ChannelRun.act
  rw [h.channel]
  cases event with
  | submit call =>
    exact ⟨c.submit call, { h with channel := Session.channel?_submit h.channel call }⟩
  | take => exact h.take
  | send deadline => exact h.send deadline
  | refuse e => exact h.refuse e
  | answer request p => exact h.answer request p
  | other p =>
    simp only [step]
    split
    · exact ⟨c, h⟩
    · rename_i hother
      exact ⟨c, { h with channel := (Session.channel?_dispatch_other hother).trans h.channel }⟩
  | conclude now => exact h.conclude now

theorem correlates_ofEvents {s : Session} (h : s.channel? m = some {})
    (events : List ChannelEvent) : ∃ c, Correlates m (ofEvents s m events) c := by
  unfold ofEvents
  induction events using List.reverseRecOn with
  | nil => exact ⟨_, correlates_initial h⟩
  | append_singleton events event ih =>
    obtain ⟨c, hc⟩ := ih
    rw [List.foldl_append]
    exact hc.act event

end ChannelRun

/-- Take any events around the channel of a module, in any order, and a call that
the module has served.  The call was ended by the answer to its own request exactly
when no answer to an earlier request has come in since the channel took the call.
Otherwise the result is made from an answer to an earlier request. -/
theorem call_answered_by_own_iff {s : Session} {m : Address} (hs : s.channel? m = some {})
    (events : List ChannelEvent) {e : CallEnd} (he : e ∈ (ChannelRun.ofEvents s m events).ended)
    (hserved : e.Served m) :
    (ChannelRun.ofEvents s m events).asked[e.request]? = some e.call ∧
      ∃ a, e.answer = some a ∧ e.result = checkResponse m e.call.transaction a.packet ∧
        (a.request = e.request ↔ ∀ b ∈ e.arrived, ¬ b.request < e.request) ∧
        (a.request ≠ e.request → a.request < e.request) := by
  obtain ⟨c, h⟩ := ChannelRun.correlates_ofEvents hs events
  obtain ⟨hasked, a, hanswer, hmem, hresult, hbounds⟩ := h.ended e he hserved
  have hmost := (hbounds a hmem).2
  refine ⟨hasked, a, hanswer, hresult, ⟨fun hown b hb => ?_, fun hnone => ?_⟩, fun hne => ?_⟩
  · have hleast := (hbounds b hb).1
    omega
  · have hnot := hnone a hmem
    omega
  · omega

/-- The first of two reads is given up.  Its answer comes in while the second one
waits, which reads the first register instead of its own. -/
theorem call_answered_by_own_iff_late :
    let s := (Session.initial (.ofSettings {})).openConnection.setChannel 1 {}
    let first : RegisterCall := { id := 0, transaction := .read 0x200 .w16 }
    let second : RegisterCall := { id := 1, transaction := .read 0x201 .w16 }
    let late := first.transaction.successResponse (first.transaction.toRequest 1 0x3ff) 0x1111
    let r := ChannelRun.ofEvents s 1 [.submit first, .submit second, .take, .send 400,
      .conclude 400, .take, .send 800, .answer 0 late, .conclude 720]
    s.channel? 1 = some {} ∧ ∃ e ∈ r.ended, e.call = second ∧ e.result = .ok 0x1111 ∧
      e.Served 1 ∧ ∃ a, e.answer = some a ∧ a.packet = late ∧ a.request ≠ e.request := by
  intro s first second late r
  let e : CallEnd :=
    { call := second
      request := 1
      arrived := [{ request := 0, packet := late }]
      answer := some { request := 0, packet := late }
      result := .ok 0x1111 }
  have hs : s.channel? 1 = some {} := rfl
  have hended : r.ended[1]? = some e := by decide +kernel
  have hmem : e ∈ r.ended := List.mem_of_getElem? hended
  have hserved : e.Served 1 := Or.inl ⟨0x1111, rfl⟩
  obtain ⟨-, a, hanswer, -, hown, -⟩ := call_answered_by_own_iff hs _ hmem hserved
  refine ⟨hs, e, hmem, rfl, rfl, hserved, a, hanswer, ?_, fun heq => ?_⟩
  · rw [← Option.some.inj hanswer]
  · exact hown.mp heq _ List.mem_cons_self Nat.zero_lt_one

/-- As long as no call was given up, every call is ended by its own answer. -/
theorem own_answer_of_no_timeout {s : Session} {m : Address} (hs : s.channel? m = some {})
    (events : List ChannelEvent)
    (hnone : ∀ e ∈ (ChannelRun.ofEvents s m events).ended, ¬ e.TimedOut m) {e : CallEnd}
    (he : e ∈ (ChannelRun.ofEvents s m events).ended) (hserved : e.Served m) : e.Own := by
  obtain ⟨c, h⟩ := ChannelRun.correlates_ofEvents hs events
  exact h.own hnone e he hserved

end ProbeNet
