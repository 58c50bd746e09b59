import ProbeNet.Proofs.Session.Calls

/-!
# Runs of a session

A `SessionRun` is a session in which operations run, whatever the target and the
transport do: any packets arrive in any order, register accesses end with any
result, and the transport takes a packet or refuses it.  Operations and register
channels go on in any order, one step at a time.  Next to the session a run keeps
every packet that was handed to the transport, taken or not.

`act_cases` says all that one event can do, so that whatever a run keeps needs one
lemma for each of three kinds of steps (`Steps`).
-/

namespace ProbeNet

open Register

/-! ## Events -/

/-- What an operation hears that waits. -/
inductive Outcome where
  | accessed (r : Except SessionError Value)
  | sent (r : Except TransportError Unit)
  | received (r : Option (Except SessionError Packet))
  | told (t : Option SimulatedTarget)

/-- What happens at a register channel. -/
inductive ChannelWork where
  | opened
  /-- The channel takes the next call. -/
  | take
  /-- The transport takes the request. -/
  | send (deadline : Nat)
  /-- The transport refuses the request. -/
  | refuse (e : TransportError)
  /-- The channel looks for the end of its call. -/
  | conclude (now : Nat)

/-- What happens in a session. -/
inductive SessionEvent (α : Type) where
  /-- Somebody starts an operation.  One that had its number is abandoned. -/
  | start (id : Nat) (o : Operation α)
  /-- An operation goes on that needs to hear of nothing. -/
  | goOn (id : Nat)
  | hear (id : Nat) (outcome : Outcome)
  /-- An operation drops the connection that it gives up. -/
  | drop (id : Nat)
  /-- The call of an operation goes to the register channel of its module. -/
  | submit (id : Nat)
  | work (m : Address) (w : ChannelWork)
  | arrive (p : Packet)
  /-- An event leaves the queue. -/
  | takeEvent
  /-- The transport fails. -/
  | lose

/-- A session and its operations, with their results. -/
structure SessionRun (α : Type) where
  session : Session
  running : Table Nat (Operation α) := .empty
  results : Table Nat α := .empty
  /-- The packets that were handed to the transport, the oldest first. -/
  handed : List Packet := []

namespace SessionRun

variable {α : Type}

/-- The run in which an operation has come to the rest of its program. -/
def park (r : SessionRun α) (id : Nat) (o : Operation α) : SessionRun α :=
  { r with running := r.running.insert id o }

theorem find?_park (r : SessionRun α) (id i : Nat) (o : Operation α) :
    (r.park id o).running.find? i = if id = i then some o else r.running.find? i :=
  Table.find?_insert r.running id i o

def hand (r : SessionRun α) (ps : List Packet) : SessionRun α := { r with handed := r.handed ++ ps }

def goOn (r : SessionRun α) (id : Nat) : Operation α → SessionRun α
  | .done a => { r with running := r.running.erase id, results := r.results.insert id a }
  | .look next => r.park id (next r.session)
  | .change f next => { r with session := f r.session }.park id next
  | .step next => r.park id next
  | .pause _ next => r.park id next
  | .print _ next => r.park id next
  | .hangUp next => r.park id (.step next)
  | .access _ _ _ | .send _ _ _ | .receive _ _ | .ask _ _ => r

/-- An operation that has heard of something takes a step before it goes on. -/
def hear (r : SessionRun α) (id : Nat) : Operation α → Outcome → SessionRun α
  | .access _ _ next, .accessed v => r.park id (.step (next v))
  | .send .first p next, .sent v => (r.hand [p]).park id (.step (next v))
  | .send .second _ next, .sent v => r.park id (.step (next v))
  | .receive _ next, .received v => r.park id (.step (next v))
  | .ask _ next, .told t => r.park id (.step (next t))
  | _, _ => r

/-- What becomes of the session and the request when a register channel works. -/
def work (r : SessionRun α) (m : Address) (c : RegisterChannel) : ChannelWork → SessionRun α
  | .opened => r
  | .take => { r with session := r.session.setChannel m c.take }
  | .send deadline =>
    { r with session := r.session.setChannel m (c.sent deadline) }.hand
      (c.request? m r.session.config.host).toList
  | .refuse e =>
    { r with session := r.session.setChannel m (c.refuse e).1 }.hand
      (c.request? m r.session.config.host).toList
  | .conclude now => { r with session := r.session.setChannel m (c.conclude m now).1 }

/-- The run after an event. -/
def act (r : SessionRun α) : SessionEvent α → SessionRun α
  | .start id o => r.park id o
  | .goOn id =>
    match r.running.find? id with
    | some o => r.goOn id o
    | none => r
  | .hear id outcome =>
    match r.running.find? id with
    | some o => r.hear id o outcome
    | none => r
  | .drop id =>
    match r.running.find? id with
    | some (.hangUp _) => { r with session := r.session.dropConnection }
    | _ => r
  | .submit id =>
    match r.running.find? id with
    | some (.access m t _) =>
      { r with session := r.session.submit m { id, transaction := t } }
    | _ => r
  | .work m w =>
    match r.session.channel? m, w with
    | some c, w => r.work m c w
    | none, .opened => { r with session := r.session.setChannel m {} }
    | none, _ => r
  | .arrive p => { r with session := (r.session.dispatch p).1 }
  | .takeEvent =>
    match r.session.takeEvent with
    | some (_, session) => { r with session }
    | none => r
  | .lose => { r with session := r.session.loseTransport }

/-- The run after some events. -/
def after (r : SessionRun α) (events : List (SessionEvent α)) : SessionRun α := events.foldl act r

theorem after_append (r : SessionRun α) (events more : List (SessionEvent α)) :
    r.after (events ++ more) = (r.after events).after more :=
  List.foldl_append

end SessionRun

/-! ## The limit of a session -/

namespace Session

variable (s : Session)

@[simp] theorem maxPacketLen_setChannel (m : Address) (c : RegisterChannel) :
    (s.setChannel m c).maxPacketLen = s.maxPacketLen := rfl

@[simp] theorem maxPacketLen_submit (m : Address) (call : RegisterCall) :
    (s.submit m call).maxPacketLen = s.maxPacketLen := rfl

@[simp] theorem maxPacketLen_deliver (p : Packet) :
    (s.deliver p).1.maxPacketLen = s.maxPacketLen := by
  obtain ⟨events, hdeliver⟩ := s.deliver_fst p
  rw [hdeliver]

/-- What arrives says nothing about the limit. -/
@[simp] theorem maxPacketLen_dispatch (p : Packet) :
    (s.dispatch p).1.maxPacketLen = s.maxPacketLen := by
  unfold dispatch
  split
  · unfold routeResponse
    split <;> rfl
  · unfold joinEvent
    split
    · rfl
    · simp only
      split
      · exact maxPacketLen_deliver ..
      · rfl
      · rfl
  · exact s.maxPacketLen_deliver p
  · exact s.maxPacketLen_deliver p

theorem maxPacketLen_takeEvent {s s' : Session} {p : Packet} (h : s.takeEvent = some (p, s')) :
    s'.maxPacketLen = s.maxPacketLen := by
  unfold takeEvent at h
  split at h
  · cases h
  · cases h
    rfl

end Session

/-! ## What one event does -/

/-- The packet is the request of a register channel. -/
def Packet.IsRequest (p : Packet) : Prop :=
  ∃ (t : Transaction) (m host : Address), p = t.toRequest m host

theorem RegisterChannel.isRequest_of_request? {c : RegisterChannel} {m host : Address} {p : Packet}
    (h : p ∈ c.request? m host) : p.IsRequest := by
  unfold request? at h
  split at h
  · rename_i call _
    exact ⟨call.transaction, m, host, (Option.some.inj h).symm⟩
  · cases h

/-- An operation comes to the rest of its program, which keeps to what the operation
kept to. -/
def Operation.Moves {α : Type} (o : Operation α) (limit : Nat) (ps : List Packet)
    (o' : Operation α) (limit' : Nat) : Prop :=
  ∀ terms post, o.Keeps terms post limit →
    o'.Keeps terms post limit' ∧ (limit' = limit ∨ terms.changes limit limit') ∧
      ∀ p ∈ ps, terms.sends limit p

namespace SessionRun

variable {α : Type} {r : SessionRun α}

/-- What an event can do that does not start an operation. -/
inductive Steps (r : SessionRun α) : SessionRun α → Prop where
  /-- Something happens around the operations. -/
  | around (session : Session) (ps : List Packet)
    (hlimit : session.maxPacketLen = r.session.maxPacketLen) (hps : ∀ p ∈ ps, p.IsRequest) :
    Steps r ({ r with session }.hand ps)
  | moves (id : Nat) (o o' : Operation α) (session : Session) (ps : List Packet)
    (ho : r.running.find? id = some o)
    (hmoves : o.Moves r.session.maxPacketLen ps o' session.maxPacketLen) :
    Steps r (({ r with session }.hand ps).park id o')
  | ends (id : Nat) (a : α) (ho : r.running.find? id = some (.done a)) :
    Steps r { r with running := r.running.erase id, results := r.results.insert id a }

theorem hand_nil (r : SessionRun α) : r.hand [] = r := by
  unfold hand
  rw [List.append_nil]

/-- Only the session changes, and not its limit. -/
theorem Steps.session {session : Session} (h : session.maxPacketLen = r.session.maxPacketLen) :
    r.Steps { r with session } := by
  have hsteps := Steps.around (r := r) session [] h (by simp)
  rwa [hand_nil] at hsteps

theorem Steps.refl (r : SessionRun α) : r.Steps r := Steps.session rfl

/-- An operation goes on that hands nothing over and leaves the session alone. -/
theorem Steps.park {id : Nat} {o o' : Operation α} (ho : r.running.find? id = some o)
    (h : ∀ terms post limit, o.Keeps terms post limit → o'.Keeps terms post limit) :
    r.Steps (r.park id o') := by
  have hsteps := Steps.moves id o o' r.session [] ho fun terms post hkeeps =>
    ⟨h terms post _ hkeeps, Or.inl rfl, by simp⟩
  rwa [hand_nil] at hsteps

theorem steps_goOn {id : Nat} {o : Operation α} (ho : r.running.find? id = some o) :
    r.Steps (r.goOn id o) := by
  cases o with
  | done a => exact Steps.ends id a ho
  | look next =>
    have hsteps := Steps.moves id _ (next r.session) r.session [] ho fun terms post hkeeps =>
      ⟨hkeeps r.session rfl, Or.inl rfl, by simp⟩
    rwa [hand_nil] at hsteps
  | change f next =>
    have hsteps := Steps.moves id _ next (f r.session) [] ho fun terms post hkeeps =>
      ⟨(hkeeps r.session rfl).2, Or.inr (hkeeps r.session rfl).1, by simp⟩
    rwa [hand_nil] at hsteps
  | step next => exact Steps.park ho fun _ _ _ h => h
  | pause ms next => exact Steps.park ho fun _ _ _ h => h
  | print text next => exact Steps.park ho fun _ _ _ h => h
  | hangUp next => exact Steps.park ho fun _ _ _ h => h
  | access m t next => exact Steps.refl r
  | send e p next => exact Steps.refl r
  | receive wait next => exact Steps.refl r
  | ask g next => exact Steps.refl r

theorem steps_hear {id : Nat} {o : Operation α} (ho : r.running.find? id = some o)
    (outcome : Outcome) : r.Steps (r.hear id o outcome) := by
  unfold hear
  split
  · exact Steps.park ho fun _ _ _ h => h _
  · rename_i p next v
    exact Steps.moves id _ (.step (next v)) r.session [p] ho fun terms post hkeeps =>
      ⟨hkeeps.2 v, Or.inl rfl, by simpa using hkeeps.1⟩
  · exact Steps.park ho fun _ _ _ h => h.2 _
  · exact Steps.park ho fun _ _ _ h => h _
  · exact Steps.park ho fun _ _ _ h => h _
  · exact Steps.refl r

theorem steps_work (m : Address) (c : RegisterChannel) (w : ChannelWork) :
    r.Steps (r.work m c w) := by
  have hrequest : ∀ p ∈ (c.request? m r.session.config.host).toList, p.IsRequest :=
    fun p hp => RegisterChannel.isRequest_of_request? (Option.mem_toList.mp hp)
  cases w with
  | opened => exact Steps.refl r
  | take => exact Steps.session rfl
  | send deadline => exact Steps.around _ _ rfl hrequest
  | refuse e => exact Steps.around _ _ rfl hrequest
  | conclude now => exact Steps.session rfl

/-- All that an event can do. -/
theorem act_cases (r : SessionRun α) (event : SessionEvent α) :
    (∃ id o, event = .start id o ∧ r.act event = r.park id o) ∨ r.Steps (r.act event) := by
  cases event with
  | start id o => exact Or.inl ⟨id, o, rfl, rfl⟩
  | goOn id =>
    right
    simp only [act]
    split
    · rename_i o ho
      exact steps_goOn ho
    · exact Steps.refl r
  | hear id outcome =>
    right
    simp only [act]
    split
    · rename_i o ho
      exact steps_hear ho outcome
    · exact Steps.refl r
  | drop id =>
    right
    simp only [act]
    split
    · exact Steps.session rfl
    · exact Steps.refl r
  | submit id =>
    right
    simp only [act]
    split
    · exact Steps.session rfl
    · exact Steps.refl r
  | work m w =>
    right
    simp only [act]
    split
    · exact steps_work ..
    · exact Steps.session rfl
    · exact Steps.refl r
  | arrive p => exact Or.inr (Steps.session (r.session.maxPacketLen_dispatch p))
  | takeEvent =>
    right
    simp only [act]
    split
    · rename_i p session htaken
      exact Steps.session (Session.maxPacketLen_takeEvent htaken)
    · exact Steps.refl r
  | lose => exact Or.inr (Steps.session rfl)

end SessionRun

end ProbeNet
