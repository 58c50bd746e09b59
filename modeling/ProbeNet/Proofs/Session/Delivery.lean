import ProbeNet.Proofs.Session.Looks
import ProbeNet.Proofs.Session.Places

/-!
# Events that reach the user

Packets are dispatched, calls are made and looked at, and time passes, in any order.  Every
complete packet goes to one place, which is the handler that is installed at that moment if
there is one, and the calls that receive events return what was queued, in this order, and
each packet once.

* `Executive.followAll` is such a run, `placements` its log of complete packets with the
  place of each.
* `Serves` is what every run keeps, and `Accounts` says that the packets of a log have gone
  to their places.  `Serves.dispatch_placement` is what one packet does, and
  `Serves.followAll` is the induction.
* `complete_packets_have_one_place` is the result.
-/

namespace ProbeNet

open Session

namespace Executive

variable {x y z : Executive EventReply} {id : Nat}

/-! ## Runs -/

/-- What happens to the events of a session. -/
inductive HostStep where
  /-- A packet has arrived and is dispatched. -/
  | dispatch (p : Packet)
  | call (c : EventCall)
  /-- A call gets a look. -/
  | look (id : Nat)
  /-- The agenda changes: time passes, or turns and steps are given out. -/
  | plan (f : Agenda → Agenda)

def HostStep.dispatched? : HostStep → Option Packet
  | dispatch p => some p
  | call _ | look _ | plan _ => none

def follow (x : Executive EventReply) : HostStep → Executive EventReply
  | .dispatch p => x.dispatch p
  | .call c => (enrol [c.operation] x).1
  | .look id => x.advanceWaiting id
  | .plan f => x.plan f

def followAll (x : Executive EventReply) (steps : List HostStep) : Executive EventReply :=
  steps.foldl follow x

/-- What a packet completes, and where this goes now. -/
def placement (x : Executive EventReply) (r : Reassembler) (p : Packet) : List (Packet × Place) :=
  ((r.whole? p).map fun q => (q, x.session.place)).toList

/-- What is complete in a run, in this order, and where it goes at that moment. -/
def placements (x : Executive EventReply) (r : Reassembler) :
    List HostStep → List (Packet × Place)
  | [] => []
  | .dispatch p :: steps =>
    x.placement r p ++ (x.follow (.dispatch p)).placements (r.push p).1 steps
  | step :: steps => (x.follow step).placements r steps

/-- The packets that calls have returned, in the order in which the calls have ended. -/
def returned (x : Executive EventReply) : List Packet :=
  x.results.values.filterMap EventReply.packet?

/-- What calls have set the handler to, in the order in which the calls have ended. -/
def handlersSet (x : Executive EventReply) : List (Option HandlerId) :=
  x.results.values.filterMap EventReply.handler?

/-- A new call waits for its first look. -/
theorem find?_call (x : Executive EventReply) (c : EventCall) :
    (x.follow (.call c)).waiting.find? x.nextId = some ⟨c.operation, .fresh⟩ := by
  show (x.waiting.insert x.nextId _).find? x.nextId = _
  rw [Table.find?_insert, if_pos rfl]

/-- What is complete is what the dispatched packets complete. -/
theorem placements_fst (x : Executive EventReply) (r : Reassembler) (steps : List HostStep) :
    (x.placements r steps).map Prod.fst = r.wholes (steps.filterMap HostStep.dispatched?) := by
  induction steps generalizing x r with
  | nil => rfl
  | cons step steps ih =>
    cases step with
    | dispatch p =>
      have hfirst : (x.placement r p).map Prod.fst = (r.whole? p).toList := by
        unfold placement
        cases r.whole? p <;> rfl
      rw [placements, List.map_append, ih, hfirst]
      rfl
    | _ => exact ih _ r

/-! ### One step -/

/-- What every run keeps that begins with the session `s` and has brought the reassembler
to `r`. -/
structure Serves (s : Session) (r : Reassembler) (x : Executive EventReply) : Prop where
  connection : x.session.connection.map Connection.reassembler = some r
  config : x.session.config = s.config
  bounded : x.session.events.length ≤ max s.events.length (max s.config.eventQueueDepth 1)
  handler : x.session.handler = x.handlersSet.getLast?.getD s.handler
  programs : ∀ id w, x.waiting.find? id = some w → EventCall.IsLeft w.operation
  apart : ∀ id w, x.waiting.find? id = some w → x.results.find? id = none
  fresh : ∀ id, x.nextId ≤ id → x.waiting.find? id = none ∧ x.results.find? id = none

/-- Between `x` and `y` the packets of `log` have gone to their places, and some events
from the queue to the user. -/
structure Accounts (x : Executive EventReply) (log : List (Packet × Place))
    (y : Executive EventReply) : Prop where
  handled : y.handled.reverse = x.handled.reverse ++ handlerCalls log
  queued : y.returned ++ y.session.events = x.returned ++ x.session.events ++ placed .queue log

variable {s : Session} {r : Reassembler} {log more : List (Packet × Place)}
  {z : Executive EventReply}

theorem Accounts.trans (h : x.Accounts log y) (h' : y.Accounts more z) :
    x.Accounts (log ++ more) z := by
  refine ⟨?_, ?_⟩
  · rw [h'.handled, h.handled, handlerCalls_append, List.append_assoc]
  · rw [h'.queued, h.queued, placed_append, List.append_assoc]

/-- Nothing is delivered and no call ends. -/
theorem Accounts.of_eq (hhandled : y.handled = x.handled) (hresults : y.results = x.results)
    (hevents : y.session.events = x.session.events) : x.Accounts [] y :=
  ⟨by simp [hhandled], by simp [returned, hresults, hevents]⟩

theorem Accounts.refl (x : Executive EventReply) : x.Accounts [] x := Accounts.of_eq rfl rfl rfl

theorem Accounts.arranged (h : x.Accounts log y) (hsame : y.Arranged z) : x.Accounts log z := by
  obtain ⟨a, b, c, rfl⟩ := hsame
  exact ⟨h.handled, h.queued⟩

theorem Serves.arranged (h : x.Serves s r) (hsame : x.Arranged y) : y.Serves s r := by
  obtain ⟨a, b, c, rfl⟩ := hsame
  exact ⟨h.connection, h.config, h.bounded, h.handler, h.programs, h.apart, h.fresh⟩

/-! ### Dispatching -/

/-- Dispatching does with the session what the session says, calls the handler that it
says, and lets the calls of the user alone. -/
theorem dispatch_fields (x : Executive EventReply) (p : Packet) :
    (x.dispatch p).session = (x.session.dispatch p).1 ∧
      (x.dispatch p).handled = (x.session.dispatch p).2.call?.toList ++ x.handled ∧
      (x.dispatch p).waiting = x.waiting ∧ (x.dispatch p).results = x.results ∧
      (x.dispatch p).nextId = x.nextId := by
  unfold Executive.dispatch
  simp only
  cases (x.session.dispatch p).2 with
  | queued =>
    obtain ⟨_, _, _, hrings⟩ :=
      arranged_ringHolder
        (spend { x with session := (x.session.dispatch p).1, undispatched := none }) .events
    simp only [hrings]
    exact ⟨rfl, rfl, rfl, rfl, rfl⟩
  | _ => exact ⟨rfl, rfl, rfl, rfl, rfl⟩

/-- What a packet completes goes where its placement says, and nothing else goes anywhere. -/
theorem Serves.dispatch_placement (h : x.Serves s r) (p : Packet) :
    (x.dispatch p).handled = handlerCalls (x.placement r p) ++ x.handled ∧
      (x.dispatch p).session.events = x.session.events ++ placed .queue (x.placement r p) := by
  obtain ⟨c, hc, rfl⟩ := Option.map_eq_some_iff.mp h.connection
  obtain ⟨-, hplaces⟩ := Session.dispatch_places hc p
  obtain ⟨hsession, hhandled, -, -, -⟩ := x.dispatch_fields p
  refine ⟨?_, ?_⟩
  · rw [hhandled, hplaces.handled]
    rfl
  · rw [hsession, hplaces.events]
    rfl

/-- A packet that is complete goes to the handler that is installed and to no other one.
Without a handler it is queued, or lost. -/
theorem Serves.dispatch_whole (h : x.Serves s r) {p q : Packet} (hwhole : r.whole? p = some q) :
    (x.dispatch p).handled =
        (x.session.handler.map fun h => { handler := h, packet := q }).toList ++ x.handled ∧
      (x.dispatch p).session.events = x.session.events ++
        if x.session.handler = none ∧
          x.session.events.length < max s.config.eventQueueDepth 1 then [q] else [] := by
  obtain ⟨hcalled, hqueued⟩ := h.dispatch_placement p
  have hplacement : x.placement r p = [(q, x.session.place)] := by
    rw [placement, hwhole]
    rfl
  refine ⟨?_, ?_⟩
  · rw [hcalled, hplacement, handlerCalls_singleton, Session.call?_place]
  · rw [hqueued, hplacement, placed_singleton, ← h.config]
    simp only [Session.place_eq_queue_iff]

/-- A packet that completes nothing reaches nobody. -/
theorem Serves.dispatch_nothing (h : x.Serves s r) {p : Packet} (hnothing : r.whole? p = none) :
    (x.dispatch p).handled = x.handled ∧
      (x.dispatch p).session.events = x.session.events := by
  obtain ⟨hcalled, hqueued⟩ := h.dispatch_placement p
  have hempty : x.placement r p = [] := by
    rw [placement, hnothing]
    rfl
  rw [hcalled, hqueued, hempty]
  exact ⟨rfl, List.append_nil _⟩

/-- A dispatched packet goes where its placement says. -/
theorem Serves.dispatch (h : x.Serves s r) (p : Packet) :
    (x.dispatch p).Serves s (r.push p).1 ∧ x.Accounts (x.placement r p) (x.dispatch p) := by
  obtain ⟨hcalled, hqueued⟩ := h.dispatch_placement p
  obtain ⟨c, hc, rfl⟩ := Option.map_eq_some_iff.mp h.connection
  obtain ⟨hconnection, hplaces⟩ := Session.dispatch_places hc p
  obtain ⟨hsession, -, hwaiting, hresults, hnextId⟩ := x.dispatch_fields p
  have hreturned : (x.dispatch p).returned = x.returned := by rw [returned, returned, hresults]
  have hset : (x.dispatch p).handlersSet = x.handlersSet := by
    rw [handlersSet, handlersSet, hresults]
  refine ⟨?_, ?_, ?_⟩
  · refine ⟨hsession ▸ hconnection, ?_, ?_, ?_, ?_, ?_, ?_⟩
    · rw [hsession, hplaces.config, h.config]
    · have hbefore := h.bounded
      have hafter := hplaces.bounded
      rw [h.config] at hafter
      rw [hsession]
      omega
    · rw [hsession, hset, hplaces.handler, h.handler]
    · rw [hwaiting]
      exact h.programs
    · rw [hwaiting, hresults]
      exact h.apart
    · rw [hwaiting, hresults, hnextId]
      exact h.fresh
  · -- There is one call at most, which reads the same in both directions.
    have hone : (handlerCalls (x.placement c.reassembler p)).reverse =
        handlerCalls (x.placement c.reassembler p) := by
      rw [placement, ← hplaces.handled]
      cases (x.session.dispatch p).2.call? <;> rfl
    rw [hcalled, List.reverse_append, hone]
  · rw [hreturned, hqueued, List.append_assoc]

/-! ### Looking at calls -/

/-- A call that ends adds its reply to those of the calls that have ended before. -/
theorem replies_finish (h : x.results.find? id = none) (reply : EventReply) :
    (x.finish id reply).returned = x.returned ++ reply.packet?.toList ∧
      (x.finish id reply).handlersSet = x.handlersSet ++ reply.handler?.toList := by
  have hvalues : (x.finish id reply).results.values = x.results.values ++ [reply] :=
    Table.values_insert_of_none h reply
  have hone : ∀ {β : Type} (f : EventReply → Option β), [reply].filterMap f = (f reply).toList := by
    intro β f
    cases hf : f reply <;> simp [hf]
  unfold returned handlersSet
  rw [hvalues, List.filterMap_append, List.filterMap_append, hone, hone]
  exact ⟨rfl, rfl⟩

/-- A call is new, or goes on waiting. -/
theorem Serves.park (h : x.Serves s r) {o : Operation EventReply} (ho : EventCall.IsLeft o)
    (stage : Stage) (hnew : x.results.find? id = none) {next : Nat} (hnext : x.nextId ≤ next)
    (hid : ∀ i, next ≤ i → id ≠ i) :
    (Executive.park { x with nextId := next } id o stage).Serves s r := by
  have hwaiting : ∀ i, (Executive.park { x with nextId := next } id o stage).waiting.find? i =
      if id = i then some ⟨o, stage⟩ else x.waiting.find? i := fun i => Table.find?_insert ..
  refine ⟨h.connection, h.config, h.bounded, h.handler, ?_, ?_, ?_⟩
  · intro i v hv
    rw [hwaiting] at hv
    split at hv
    · obtain rfl := Option.some.inj hv
      exact ho
    · exact h.programs i v hv
  · intro i v hv
    rw [hwaiting] at hv
    split at hv
    · rename_i heq
      exact heq ▸ hnew
    · exact h.apart i v hv
  · intro i hi
    obtain ⟨hnone, hresults⟩ := h.fresh i (Nat.le_trans hnext hi)
    rw [hwaiting, if_neg (hid i hi)]
    exact ⟨hnone, hresults⟩

/-- The call with a number ends, and the session changes. -/
theorem Serves.finish (h : x.Serves s r) {w : Waiting EventReply} (hw : x.waiting.find? id = some w)
    (reply : EventReply) {t : Session}
    (hconnection : t.connection = x.session.connection) (hconfig : t.config = x.session.config)
    (hlength : t.events.length ≤ x.session.events.length)
    (hhandler : t.handler = reply.handler?.getD x.session.handler) :
    (Executive.finish { x with session := t } id reply).Serves s r := by
  obtain ⟨-, hset⟩ := replies_finish (x := { x with session := t }) (h.apart id w hw) reply
  have hwaiting : ∀ i, (Executive.finish { x with session := t } id reply).waiting.find? i =
      if id = i then none else x.waiting.find? i := fun i => Table.find?_erase ..
  have hresults : ∀ i, (Executive.finish { x with session := t } id reply).results.find? i =
      if id = i then some reply else x.results.find? i := fun i => Table.find?_insert ..
  refine ⟨?_, hconfig.trans h.config, Nat.le_trans hlength h.bounded, ?_, ?_, ?_, ?_⟩
  · show t.connection.map _ = _
    rw [hconnection, h.connection]
  · show t.handler = _
    rw [hset, hhandler, h.handler]
    cases hreply : reply.handler? with
    | none => simp [handlersSet]
    | some handler => simp
  · intro i v hv
    rw [hwaiting] at hv
    split at hv
    · cases hv
    · exact h.programs i v hv
  · intro i v hv
    rw [hwaiting] at hv
    rw [hresults]
    split at hv
    · cases hv
    · rename_i hne
      rw [if_neg hne]
      exact h.apart i v hv
  · intro i hi
    have hne : id ≠ i := by
      rintro rfl
      rw [(h.fresh id hi).1] at hw
      cases hw
    rw [hwaiting, hresults, if_neg hne, if_neg hne]
    exact h.fresh i hi

/-- What a look at a call leads to keeps everything. -/
theorem Serves.looked (h : x.Serves s r) {w : Waiting EventReply}
    (hw : x.waiting.find? id = some w) (hy : x.Looked id y) : y.Serves s r ∧ x.Accounts [] y := by
  have hnew := h.apart id w hw
  cases hy with
  | waits o stage y ho hsame =>
    have hold : ∀ i, x.nextId ≤ i → id ≠ i := by
      rintro i hi rfl
      rw [(h.fresh id hi).1] at hw
      cases hw
    have hparked := h.park ho stage hnew (Nat.le_refl _) hold
    have hcounts : x.Accounts [] (x.park id o stage) := Accounts.of_eq rfl rfl rfl
    exact ⟨hparked.arranged hsame, hcounts.arranged hsame⟩
  | switches handler y hsame =>
    have hended := h.finish hw (.handlerSet handler)
      (t := { x.session with handler }) rfl rfl (Nat.le_refl _) rfl
    obtain ⟨hreturned, -⟩ := replies_finish
      (x := { x with session := { x.session with handler } }) hnew (.handlerSet handler)
    refine ⟨hended.arranged hsame, Accounts.arranged ⟨?_, ?_⟩ hsame⟩
    · simp [Executive.finish]
    · rw [hreturned]
      simp [Executive.finish, returned, EventReply.packet?]
  | takes p t y htaken hsame =>
    obtain ⟨hevents, ht⟩ := Session.takeEvent_cases htaken
    have hended := h.finish hw (.received (.ok (some p))) (t := t) (by rw [ht]) (by rw [ht])
      (by rw [hevents]; exact Nat.le_succ _) (by rw [ht]; rfl)
    obtain ⟨hreturned, -⟩ := replies_finish (x := { x with session := t }) hnew
      (.received (.ok (some p)))
    refine ⟨hended.arranged hsame, Accounts.arranged ⟨?_, ?_⟩ hsame⟩
    · simp [Executive.finish]
    · rw [hreturned, hevents]
      simp [Executive.finish, returned, EventReply.packet?]
  | ends reply y hpacket hhandler hsame =>
    have hended := h.finish hw reply (t := x.session) rfl rfl (Nat.le_refl _)
      (by rw [hhandler]; rfl)
    obtain ⟨hreturned, -⟩ := replies_finish (x := x) hnew reply
    refine ⟨hended.arranged hsame, Accounts.arranged ⟨?_, ?_⟩ hsame⟩
    · simp [Executive.finish]
    · rw [hreturned, hpacket]
      simp [Executive.finish]

/-! ### Whole runs -/

/-- Everything that can happen is accounted for. -/
theorem Serves.followAll (h : x.Serves s r) (steps : List HostStep) :
    (x.followAll steps).Serves s (r.after (steps.filterMap HostStep.dispatched?)) ∧
      x.Accounts (x.placements r steps) (x.followAll steps) := by
  -- On the steps.  A dispatched packet brings the reassembler further.
  induction steps generalizing x r with
  | nil => exact ⟨h, Accounts.refl x⟩
  | cons step steps ih =>
    cases step with
    | dispatch p =>
      obtain ⟨hserves, haccounts⟩ := h.dispatch p
      obtain ⟨hrest, hmore⟩ := ih hserves
      exact ⟨hrest, haccounts.trans hmore⟩
    | call c =>
      have hnew : (x.follow (.call c)).Serves s r :=
        h.park (Or.inl ⟨c, rfl⟩) .fresh (h.fresh x.nextId (Nat.le_refl _)).2 (Nat.le_succ _)
          fun i hi => by omega
      obtain ⟨hrest, hmore⟩ := ih hnew
      have hcounts : x.Accounts [] (x.follow (.call c)) := Accounts.of_eq rfl rfl rfl
      exact ⟨hrest, hcounts.trans hmore⟩
    | look id =>
      have hlooked : (x.advanceWaiting id).Serves s r ∧ x.Accounts [] (x.advanceWaiting id) := by
        unfold advanceWaiting
        split
        · exact ⟨h, Accounts.refl x⟩
        · rename_i w hw
          exact h.looked hw (advance_looked (h.programs id w hw) w.stage)
      obtain ⟨hrest, hmore⟩ := ih (x := x.follow (.look id)) hlooked.1
      exact ⟨hrest, hlooked.2.trans hmore⟩
    | plan f =>
      have hplanned := x.arranged_plan f
      obtain ⟨hrest, hmore⟩ := ih (x := x.follow (.plan f)) (h.arranged hplanned)
      exact ⟨hrest, ((Accounts.refl x).arranged hplanned).trans hmore⟩

/-- Every complete packet is the answer of no register. -/
theorem packetClass_of_mem_wholes {q : Packet} {ps : List Packet} (h : q ∈ r.wholes ps) :
    q.packetClass ≠ .register := by
  induction ps generalizing r with
  | nil => cases h
  | cons p ps ih =>
    rcases List.mem_append.mp h with h | h
    · exact Reassembler.packetClass_of_whole? (Option.mem_toList.mp h)
    · exact ih h

/-! ### Calls that find an event -/

variable {p : Packet} {rest : List Packet} {wait : Option Nat}

/-- A look at a call that gets hold of the event queue returns the oldest event. -/
theorem look_of_held {w : Waiting EventReply} (hw : x.waiting.find? id = some w)
    (hcall : w.operation = (EventCall.receive wait).operation ∨
      w.operation = EventCall.waiting wait)
    (hconnected : x.session.connected = true) (hevents : x.session.events = p :: rest)
    (hsteps : 2 ≤ x.agenda.allowance) (hheld : (x.holdEvents id).2 = true) :
    (x.follow (.look id)).results.find? id = some (.received (.ok (some p))) ∧
      (x.follow (.look id)).session.events = rest := by
  have hwaits : ∀ stage,
      (advance id (EventCall.waiting wait) stage x).results.find? id =
          some (.received (.ok (some p))) ∧
        (advance id (EventCall.waiting wait) stage x).session.events = rest := by
    intro stage
    have hout : (x.receive id wait stage).2 = .ok (some (.ok p)) :=
      receive_of_held hevents hsteps hheld stage
    rcases x.receive_cases id wait stage with ⟨-, hnone⟩ | ⟨q, session, htaken, -, hsame⟩
    · exact absurd hout (hnone p)
    · obtain ⟨hqueue, -⟩ := Session.takeEvent_cases htaken
      obtain ⟨-, rfl⟩ := List.cons.inj (hqueue.symm.trans hevents)
      simp only [EventCall.waiting, advance]
      generalize x.receive id wait stage = out at hout hsame ⊢
      obtain ⟨y, out⟩ := out
      obtain rfl : out = .ok (some (.ok p)) := hout
      obtain ⟨_, _, _, rfl⟩ := hsame
      refine ⟨?_, rfl⟩
      show (Table.insert _ _ _).find? id = _
      rw [Table.find?_insert, if_pos rfl]
      rfl
  simp only [follow, advanceWaiting, hw]
  rcases hcall with hcall | hcall
  · rw [hcall, EventCall.operation_receive, advance, hconnected]
    exact hwaits .fresh
  · rw [hcall]
    exact hwaits w.stage

end Executive

open Executive

/-- Every complete packet of a session goes to one place.  Of the packets that are
dispatched, in any order with calls that install and remove handlers and calls that
receive events, those that are complete are what handlers were called with, what was
queued and what was lost; which of these is decided when a packet is complete.  The
handler is the one that was installed last.  It is the one that is called with the next
packet that is complete, and no other one is; without a handler this packet is queued, or
lost when the queue is full.  The calls have returned what was queued, in this order, up
to what is still in the queue; the queue has never more than its depth, unless it began
so.  Answers of registers, parts of events that go on and runs that fail reach nobody.  A
look at a call that may have the queue, and has two steps left, returns the oldest
event. -/
theorem complete_packets_have_one_place (s : Session) (c : Connection) (peer : Peer)
    (hc : s.connection = some c) (steps : List HostStep) :
    let x : Executive EventReply := { session := s, peer }
    let y := x.followAll steps
    let r := c.reassembler.after (steps.filterMap HostStep.dispatched?)
    let log := x.placements c.reassembler steps
    (log.map Prod.fst = c.reassembler.wholes (steps.filterMap HostStep.dispatched?) ∧
      y.handled.reverse = handlerCalls log ∧
      y.returned ++ y.session.events = s.events ++ placed .queue log) ∧
    (y.session.handler = y.handlersSet.getLast?.getD s.handler ∧
      y.session.events.length ≤ max s.events.length (max s.config.eventQueueDepth 1)) ∧
    (∀ p q, r.whole? p = some q →
      (y.dispatch p).handled =
          (y.session.handler.map fun h => { handler := h, packet := q }).toList ++ y.handled ∧
        (y.dispatch p).session.events = y.session.events ++
          if y.session.handler = none ∧
            y.session.events.length < max s.config.eventQueueDepth 1 then [q] else []) ∧
    ((∀ entry ∈ log, entry.1.packetClass ≠ .register) ∧
      ∀ p, (p.packetClass = .register ∨ p.continues = true ∨
          p.packetClass = .event ∧ ∃ e, (r.push p).2 = .error e) →
        (y.dispatch p).handled = y.handled ∧
          (y.dispatch p).session.events = y.session.events) ∧
    ∀ id w wait p rest, y.waiting.find? id = some w →
      (w.operation = (EventCall.receive wait).operation ∨
        w.operation = EventCall.waiting wait) →
      y.session.connected = true → y.session.events = p :: rest → 2 ≤ y.agenda.allowance →
      (y.holdEvents id).2 = true →
        (y.follow (.look id)).results.find? id = some (.received (.ok (some p))) ∧
          (y.follow (.look id)).session.events = rest := by
  intro x y r log
  have hbegins : x.Serves s c.reassembler :=
    ⟨by simp [x, hc], rfl, Nat.le_max_left .., rfl, nofun, nofun, fun _ _ => ⟨rfl, rfl⟩⟩
  obtain ⟨hserves, haccounts⟩ := hbegins.followAll steps
  have hcomplete := x.placements_fst c.reassembler steps
  refine ⟨⟨hcomplete, haccounts.handled, haccounts.queued⟩, ⟨hserves.handler, hserves.bounded⟩,
    ?_, ⟨?_, ?_⟩, ?_⟩
  · intro p q hwhole
    exact hserves.dispatch_whole hwhole
  · intro entry hentry
    have hwhole : entry.1 ∈ c.reassembler.wholes (steps.filterMap HostStep.dispatched?) := by
      rw [← hcomplete]
      exact List.mem_map_of_mem hentry
    exact packetClass_of_mem_wholes hwhole
  · intro p hp
    exact hserves.dispatch_nothing (Reassembler.whole?_eq_none hp)
  · intro id w wait p rest hw hcall hconnected hevents hsteps hheld
    exact look_of_held hw hcall hconnected hevents hsteps hheld

/-- An event of module 1 comes in two packets with an event of module 2 and the answer of a
register between them.  The first packet has been received before; the queue has room for the two
events and not for the next packet.  Then handler 1 gets one packet, handler 2 is installed in its
place and gets the next one, and without a handler one more is lost.  In the end handler 1 is back:
it is called with the next packet and not with an answer, and a call that comes last gets the event
of module 2. -/
theorem complete_packets_have_one_place_full :
    let s : Session := Session.openConnection (.initial
      { host := 0x3ff, registerTimeoutMs := 1, eventQueueDepth := 2, maxPacketLen := 12
        eventWordLimit := none })
    let plain (n : Word) : Packet := { dest := 0x3ff, src := 1, kind := .plain 0, payload := [n] }
    let event (src : Address) (kind : Subclass) (payload : List Word) : Packet :=
      { dest := 0x3ff, src, kind := .event kind, payload }
    let answer : Packet := { plain 0 with kind := .register (.readSuccess .w16) }
    let steps : List HostStep :=
      [.dispatch (plain 10), .call (.receive none), .look 0,
        .dispatch (event 1 .eventContinuation [1]), .dispatch (event 2 .eventLast [9]),
        .dispatch answer, .dispatch (event 1 .eventLast [2]), .dispatch (plain 11),
        .call (.setHandler (some 1)), .look 1, .dispatch (plain 12),
        .call (.setHandler (some 2)), .look 2, .dispatch (plain 13),
        .call (.setHandler none), .look 3, .dispatch (plain 14),
        .call (.setHandler (some 1)), .look 4]
    let last : EventCall := .receive (some 5)
    let y := Executive.followAll { session := s, peer := .remote } (steps ++ [.call last])
    s.connection = some { reassembler := .initial none } ∧
      y.handled.reverse =
        [{ handler := 1, packet := plain 12 }, { handler := 2, packet := plain 13 }] ∧
      y.returned ++ y.session.events =
        [plain 10, event 2 .eventLast [9], event 1 .eventLast [1, 2]] ∧
      (y.dispatch (plain 15)).handled = { handler := 1, packet := plain 15 } :: y.handled ∧
      (y.dispatch answer).handled = y.handled ∧
      (y.follow (.look 5)).results.find? 5 =
        some (.received (.ok (some (event 2 .eventLast [9])))) := by
  intro s plain event answer steps last y
  have hc : s.connection = some { reassembler := .initial none } := rfl
  obtain ⟨⟨-, hhandled, hqueued⟩, ⟨hhandler, -⟩, hnext, ⟨-, hnothing⟩, hlook⟩ :=
    complete_packets_have_one_place s _ .remote hc (steps ++ [.call last])
  have hplaced : Executive.placements { session := s, peer := .remote } (.initial none)
        (steps ++ [.call last]) =
      [(plain 10, .queue), (event 2 .eventLast [9], .queue), (event 1 .eventLast [1, 2], .queue),
        (plain 11, .nowhere), (plain 12, .handler 1), (plain 13, .handler 2),
        (plain 14, .nowhere)] := by decide +kernel
  let z := Executive.followAll { session := s, peer := .remote } steps
  have hy : y = z.follow (.call last) := List.foldl_append
  have hid : z.nextId = 5 := by decide +kernel
  have hw : y.waiting.find? 5 = some ⟨last.operation, .fresh⟩ := by
    rw [hy, ← hid]
    exact find?_call z last
  have hready : y.session.connected = true ∧
      y.session.events = [event 2 .eventLast [9], event 1 .eventLast [1, 2]] ∧
      2 ≤ y.agenda.allowance ∧ (y.holdEvents 5).2 = true ∧ y.session.handler = some 1 := by
    decide +kernel
  obtain ⟨hconnected, hevents, hsteps, hheld, hinstalled⟩ := hready
  rw [hplaced] at hhandled hqueued
  replace hhandled : y.handled.reverse =
      [{ handler := 1, packet := plain 12 }, { handler := 2, packet := plain 13 }] := hhandled
  replace hqueued : y.returned ++ y.session.events =
      [plain 10, event 2 .eventLast [9], event 1 .eventLast [1, 2]] := hqueued
  replace hnext : (y.dispatch (plain 15)).handled =
      { handler := 1, packet := plain 15 } :: y.handled := by
    rw [(hnext (plain 15) (plain 15) rfl).1, hinstalled]
    rfl
  replace hnothing : (y.dispatch answer).handled = y.handled := (hnothing answer (Or.inl rfl)).1
  with_reducible exact ⟨hc, hhandled, hqueued, hnext, hnothing,
    (hlook 5 _ (some 5) _ _ hw (Or.inl rfl) hconnected hevents hsteps hheld).1⟩

end ProbeNet
