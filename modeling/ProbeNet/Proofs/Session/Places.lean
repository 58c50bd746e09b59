import ProbeNet.Proofs.Event.Delivery
import ProbeNet.Session.State

/-!
# Where complete packets go

A packet that a session dispatches completes an event, or is complete itself, or completes
nothing.  What is complete goes to one place: to the handler that is installed at that
moment, if there is none into the event queue if that has room, else it is lost.

* `Reassembler.whole?` is what a packet completes; `whole?_of_event` says that for an event
  this is what the reassembler returns.
* `Session.place` is where a packet goes that is complete now.  Of a log of packets with
  their places, `placed` are the packets that have gone to one of them, and `handlerCalls`
  are the calls of handlers.
* `Session.dispatch_places` says that dispatching delivers what is complete to its place,
  and nothing else.
-/

namespace ProbeNet

/-! ## What a packet completes -/

namespace Reassembler

variable {r : Reassembler} {p : Packet}

/-- The packet that is complete when a packet has come: an event with all its words, or
the packet itself.  Answers of registers are for nobody else. -/
def whole? (r : Reassembler) (p : Packet) : Option Packet :=
  match p.kind with
  | .event sub =>
    let payload := (r.pending (p.src, p.dest)).payload ++ p.payload
    if sub.isContinuation || r.exceeds payload.length then none else some { p with payload }
  | kind => if kind.packetClass = .register then none else some p

/-- The packets that are complete when some packets have come. -/
def wholes (r : Reassembler) : List Packet → List Packet
  | [] => []
  | p :: ps => (r.whole? p).toList ++ (r.push p).1.wholes ps

/-- A complete event is the packet that ends it, with the payloads joined. -/
theorem whole?_of_event (h : p.packetClass = .event) :
    r.whole? p = (r.completed? p).map Event.toPacket := by
  obtain ⟨sub, hkind⟩ := Packet.exists_kind_of_event h
  simp only [whole?, completed?, hkind]
  rcases r.push_cases hkind with ⟨hexceeds, hout, -⟩ | ⟨-, hgoes, hout, -⟩ | ⟨hfits, hends, hout, -⟩
  · rw [extend_eq] at hexceeds
    rw [hout, hexceeds, Bool.or_true]
    rfl
  · rw [hout, hgoes, Bool.true_or]
    rfl
  · rw [extend_eq] at hfits
    rw [hout, hfits, hends]
    rfl

theorem whole?_of_register (h : p.packetClass = .register) : r.whole? p = none := by
  obtain ⟨dest, src, kind, payload⟩ := p
  cases kind with
  | event sub => cases h
  | _ => simp_all [whole?, Packet.packetClass, PacketKind.packetClass]

theorem whole?_of_other (hevent : p.packetClass ≠ .event) (hregister : p.packetClass ≠ .register) :
    r.whole? p = some p := by
  obtain ⟨dest, src, kind, payload⟩ := p
  cases kind with
  | event sub => exact absurd rfl hevent
  | _ => simp_all [whole?, Packet.packetClass, PacketKind.packetClass]

/-- Packets that complete nothing: answers, parts of events that go on, and those that
make a run too long. -/
theorem whole?_eq_none (h : p.packetClass = .register ∨ p.continues = true ∨
    p.packetClass = .event ∧ ∃ e, (r.push p).2 = .error e) : r.whole? p = none := by
  rcases h with hregister | hgoes | ⟨hevent, e, herror⟩
  · exact whole?_of_register hregister
  · obtain ⟨dest, src, kind, payload⟩ := p
    cases kind with
    | event sub =>
      replace hgoes : sub.isContinuation = true := hgoes
      simp [whole?, hgoes]
    | _ => cases hgoes
  · rw [whole?_of_event hevent, completed?, herror]
    rfl

/-- No complete packet is the answer of a register. -/
theorem packetClass_of_whole? {q : Packet} (h : r.whole? p = some q) :
    q.packetClass ≠ .register := by
  by_cases hevent : p.packetClass = .event
  · rw [whole?_of_event hevent] at h
    obtain ⟨e, -, rfl⟩ := Option.map_eq_some_iff.mp h
    exact nofun
  · by_cases hregister : p.packetClass = .register
    · rw [whole?_of_register hregister] at h
      cases h
    · rw [whole?_of_other hevent hregister] at h
      obtain rfl := Option.some.inj h
      exact hregister

end Reassembler

/-! ## Places -/

/-- Where a complete packet goes. -/
inductive Place where
  | handler (h : HandlerId)
  | queue
  /-- It is lost. -/
  | nowhere
  deriving DecidableEq, Repr

/-- The call that a packet leads to which goes to a place. -/
def Place.call? (q : Packet) : Place → Option HandlerCall
  | handler h => some { handler := h, packet := q }
  | queue | nowhere => none

/-- Where a packet goes that is complete now. -/
def Session.place (s : Session) : Place :=
  match s.handler with
  | some h => .handler h
  | none => if s.events.length < max s.config.eventQueueDepth 1 then .queue else .nowhere

/-- The packets that have gone to a place. -/
def placed (place : Place) (log : List (Packet × Place)) : List Packet :=
  log.filterMap fun entry => if entry.2 = place then some entry.1 else none

@[simp] theorem placed_nil (place : Place) : placed place [] = [] := rfl

@[simp] theorem placed_append (place : Place) (log more : List (Packet × Place)) :
    placed place (log ++ more) = placed place log ++ placed place more :=
  List.filterMap_append

@[simp] theorem placed_singleton (place at_ : Place) (p : Packet) :
    placed place [(p, at_)] = if at_ = place then [p] else [] := by
  unfold placed
  split <;> simp_all

/-- The calls of handlers that the packets of a log have led to. -/
def handlerCalls (log : List (Packet × Place)) : List HandlerCall :=
  log.filterMap fun entry => entry.2.call? entry.1

@[simp] theorem handlerCalls_nil : handlerCalls [] = [] := rfl

@[simp] theorem handlerCalls_append (log more : List (Packet × Place)) :
    handlerCalls (log ++ more) = handlerCalls log ++ handlerCalls more :=
  List.filterMap_append

@[simp] theorem handlerCalls_singleton (q : Packet) (place : Place) :
    handlerCalls [(q, place)] = (place.call? q).toList := by
  cases place <;> rfl

namespace Session

variable {s : Session} {c : Connection}

/-- The handler that is installed is the one that a complete packet goes to. -/
theorem call?_place (s : Session) (q : Packet) :
    s.place.call? q = s.handler.map fun h => { handler := h, packet := q } := by
  unfold place
  cases s.handler with
  | some h => rfl
  | none =>
    simp only
    split <;> rfl

/-- Packets go into the queue only if no handler is installed. -/
theorem place_eq_queue_iff : s.place = .queue ↔
    s.handler = none ∧ s.events.length < max s.config.eventQueueDepth 1 := by
  unfold place
  cases s.handler with
  | some h => simp
  | none =>
    simp only
    split <;> simp_all

/-- The call of a handler, if there is one. -/
def Dispatched.call? : Dispatched → Option HandlerCall
  | .handled call => some call
  | .nothing | .answered _ | .queued | .lost _ => none

/-- What becomes of a session when the packets of `log` go to their places.  The handler
stays, and the one that is called is the one that a place names. -/
structure Places (s : Session) (log : List (Packet × Place)) (out : Session × Dispatched) :
    Prop where
  handler : out.1.handler = s.handler
  config : out.1.config = s.config
  events : out.1.events = s.events ++ placed .queue log
  handled : out.2.call?.toList = handlerCalls log
  bounded : out.1.events.length ≤ max s.events.length (max s.config.eventQueueDepth 1)

/-- A packet is delivered to its place. -/
theorem places_deliver (s : Session) (q : Packet) : s.Places [(q, s.place)] (s.deliver q) := by
  unfold deliver place
  cases hhandler : s.handler with
  | some h => exact ⟨rfl, rfl, by simp, rfl, Nat.le_max_left ..⟩
  | none =>
    simp only
    split
    · rename_i hroom
      exact ⟨hhandler.symm, rfl, by simp, rfl, by
        simp only [List.length_append, List.length_singleton]; omega⟩
    · exact ⟨rfl, rfl, by simp, rfl, Nat.le_max_left ..⟩

/-- Nothing is delivered. -/
theorem places_nil {t : Session} {outcome : Dispatched} (hhandler : t.handler = s.handler)
    (hconfig : t.config = s.config) (hevents : t.events = s.events)
    (hout : outcome.call? = none) : s.Places [] (t, outcome) :=
  ⟨hhandler, hconfig, by simp [hevents], by simp [hout], by rw [hevents]; exact Nat.le_max_left ..⟩

/-- What a packet completes is delivered to its place, and nothing else. -/
theorem dispatch_places (hc : s.connection = some c) (p : Packet) :
    (s.dispatch p).1.connection.map Connection.reassembler = some (c.reassembler.push p).1 ∧
      s.Places ((c.reassembler.whole? p).map fun q => (q, s.place)).toList (s.dispatch p) := by
  have hconnection : ∀ (t : Session) (q : Packet), (t.deliver q).1.connection = t.connection := by
    intro t q
    obtain ⟨events, hdeliver⟩ := t.deliver_fst q
    rw [hdeliver]
  cases hclass : p.packetClass with
  | register =>
    rw [Reassembler.push_of_not_event (by rw [hclass]; decide),
      Reassembler.whole?_of_register hclass]
    simp only [dispatch, hclass, routeResponse]
    split
    · exact ⟨by simp [setChannel, hc], places_nil rfl rfl rfl rfl⟩
    · exact ⟨by simp [hc], places_nil rfl rfl rfl rfl⟩
  | event =>
    rw [Reassembler.whole?_of_event hclass, Reassembler.completed?]
    simp only [dispatch, hclass, joinEvent, hc]
    split
    · rename_i e hout
      rw [hout, hconnection]
      let t : Session :=
        { s with connection := some { c with reassembler := (c.reassembler.push p).1 } }
      obtain ⟨hhandler, hconfig, hevents, hhandled, hbounded⟩ := t.places_deliver e.toPacket
      exact ⟨rfl, hhandler, hconfig, hevents, hhandled, hbounded⟩
    · rename_i hout
      rw [hout]
      exact ⟨rfl, places_nil rfl rfl rfl rfl⟩
    · rename_i e hout
      rw [hout]
      exact ⟨rfl, places_nil rfl rfl rfl rfl⟩
  | plain | reserved =>
    rw [Reassembler.push_of_not_event (by rw [hclass]; decide),
      Reassembler.whole?_of_other (by rw [hclass]; decide) (by rw [hclass]; decide)]
    simp only [dispatch, hclass]
    exact ⟨by rw [hconnection, hc]; rfl, s.places_deliver p⟩

theorem takeEvent_cases {t : Session} {p : Packet} (h : s.takeEvent = some (p, t)) :
    s.events = p :: t.events ∧ t = { s with events := t.events } := by
  unfold takeEvent at h
  split at h
  · cases h
  · rename_i hevents
    cases h
    exact ⟨hevents, rfl⟩

end Session

end ProbeNet
