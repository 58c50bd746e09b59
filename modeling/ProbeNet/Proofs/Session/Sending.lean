import ProbeNet.Proofs.Event.Mixing
import ProbeNet.Proofs.Session.Standing

/-!
# Events that two calls send

A call that sends an event hands its packets to the transport one after the other, and nothing keeps
another call from handing over packets in between.

* `SessionRun.carried` are the packets that the transport takes from operations in a run, with the
  numbers of the operations.
* `Operation.Sends` says which packets a call hands over, and `leads_eventSendPayload` that those
  are the packets that its event is split into.
* `Carries` says which packets of each of two calls the transport has taken, and which are left.
* `sent_events_whole_iff` says when a receiver gets the two events that were sent.
-/

namespace ProbeNet

open Packet

/-! ## One call -/

namespace Operation

variable {known : Session → Prop} {α : Type}

/-- The call hands over the packets, as long as the transport takes them; then it ends. -/
def Sends (known : Session → Prop) : List Packet → Operation (Except SessionError α) → Prop
  | [], done _ => True
  | p :: ps, send .first q next => q = p ∧ (next (.ok ())).Leads known (Sends known ps) ∧
      ∀ e, (next (.error e)).Leads known IsFailed
  | _, o => o.IsFailed

theorem IsFailed.sends {o : Operation (Except SessionError α)} (h : o.IsFailed)
    (ps : List Packet) : o.Sends known ps := by
  cases o with
  | done r =>
    cases r with
    | error e => cases ps <;> exact trivial
    | ok a => exact h.elim
  | _ => exact h.elim

theorem Sends.isHalted {ps : List Packet} {o : Operation (Except SessionError α)}
    (h : o.Sends known ps) : o.IsHalted := by
  cases o with
  | done a => trivial
  | send e p next => trivial
  | _ => cases ps <;> exact h.elim

end Operation

/-- A call that hands over packets, and ends when all are taken. -/
theorem leads_sendAll_bind {known : Session → Prop} {α : Type} (a : α) (ps : List Packet) :
    (Session.sendAll ps >>= fun _ => pure a : SessionM α).run.Leads known
      (Operation.Sends known ps) := by
  induction ps with
  | nil => exact trivial
  | cons p ps ih => exact ⟨rfl, ih, fun _ => trivial⟩

/-- A call that sends an event fails, or hands over the packets that the event is split into. -/
theorem leads_eventSendPayload (s : Session) (m : Address) (payload : List Word) :
    (Session.eventSendPayload m payload).run.Leads s.Undisturbed fun o =>
      o.IsFailed ∨ ∃ ps, fragment m s.config.host payload s.maxEventWords = .ok ps ∧
        o.Sends s.Undisturbed ps := by
  unfold Session.eventSendPayload
  refine (SessionM.looks_checkModule m).leads_bind (fun _ => ?_) fun _ => Or.inl trivial
  refine SessionM.leads_state_bind fun s' hs => ?_
  have hwords : s'.maxEventWords = s.maxEventWords := congrArg maxPayloadWords hs.limit
  rw [hs.config, hwords]
  cases hpackets : fragment m s.config.host payload s.maxEventWords with
  | error e => exact Or.inl trivial
  | ok ps =>
    exact (leads_sendAll_bind _ ps).mono (fun _ => id) fun o ho => Or.inr ⟨ps, rfl, ho⟩

/-! ## What the transport takes -/

namespace SessionRun

variable {α : Type} {r : SessionRun α} {id : Nat} {known : Session → Prop}

/-- The packet that the transport takes from an operation when this happens, with the number of the
operation. -/
def carried? (r : SessionRun α) : SessionEvent α → Option (Nat × Packet)
  | .hear id (.sent (.ok ())) =>
    match r.running.find? id with
    | some (.send .first p _) => some (id, p)
    | _ => none
  | _ => none

/-- The packets that the transport takes from operations, in this order. -/
def carried (r : SessionRun α) : List (SessionEvent α) → List (Nat × Packet)
  | [] => []
  | event :: events => (r.carried? event).toList ++ (r.act event).carried events

theorem carried?_eq_some {event : SessionEvent α} {z : Nat × Packet}
    (h : r.carried? event = some z) :
    event = .hear z.1 (.sent (.ok ())) ∧
      ∃ next, r.running.find? z.1 = some (.send .first z.2 next) := by
  unfold carried? at h
  split at h
  · split at h
    · rename_i p next ho
      cases h
      exact ⟨rfl, next, ho⟩
    · cases h
  · cases h

end SessionRun

namespace SessionRun

variable {α : Type} {r : SessionRun (Except SessionError α)} {id : Nat} {known : Session → Prop}
  {event : SessionEvent (Except SessionError α)}

/-- A call that has failed stays as it is. -/
theorem Stands.act_of_isFailed (h : r.Stands known Operation.IsFailed id) (hknown : known r.session)
    (hstart : ∀ i o, event ≠ .start i o) : (r.act event).Stands known Operation.IsFailed id :=
  h.act (fun _ => Operation.IsFailed.isHalted) hknown hstart fun outcome o _ _ ho => by
    cases o with
    | done a => cases outcome <;> rfl
    | _ => exact ho.elim

/-- A call that hands over packets waits, or the transport takes its next packet, or it fails. -/
theorem Stands.act_of_sends {ps : List Packet} (h : r.Stands known (Operation.Sends known ps) id)
    (hknown : known r.session) (hstart : ∀ i o, event ≠ .start i o) :
    ((∀ z ∈ r.carried? event, z.1 ≠ id) ∧
        (r.act event).Stands known (Operation.Sends known ps) id) ∨
      (∃ p rest, ps = p :: rest ∧ r.carried? event = some (id, p) ∧
        (r.act event).Stands known (Operation.Sends known rest) id) ∨
      (r.act event).Stands known Operation.IsFailed id := by
  by_cases hsent : ∃ result p next, event = .hear id (.sent result) ∧
      r.running.find? id = some (.send .first p next)
  · obtain ⟨result, p, next, rfl, ho⟩ := hsent
    obtain ⟨hresult, hsends⟩ := h.of_running ho
    have hact : r.act (.hear id (.sent result)) = (r.hand [p]).park id (.step (next result)) := by
      simp only [SessionRun.act, ho]
      rfl
    have hcarried : r.carried? (.hear id (.sent (.ok ()))) = some (id, p) := by
      simp only [carried?, ho]
    cases ps with
    | nil => exact hsends.elim
    | cons q rest =>
      obtain ⟨rfl, hok, herror⟩ := hsends
      cases result with
      | ok u =>
        refine Or.inr (Or.inl ⟨p, rest, rfl, hcarried, ?_⟩)
        rw [hact]
        exact stands_park hresult hok
      | error e =>
        refine Or.inr (Or.inr ?_)
        rw [hact]
        exact stands_park hresult (herror e)
  · refine Or.inl ⟨?_, h.act (fun _ => Operation.Sends.isHalted) hknown hstart ?_⟩
    · rintro z hz rfl
      obtain ⟨rfl, next, ho⟩ := carried?_eq_some hz
      exact hsent ⟨_, _, next, rfl, ho⟩
    · rintro outcome o rfl ho hsends
      cases o with
      | done a => cases outcome <;> rfl
      | send e p next =>
        cases e with
        | first =>
          cases outcome with
          | sent result => exact (hsent ⟨result, p, next, rfl, ho⟩).elim
          | _ => rfl
        | second => cases ps <;> exact hsends.elim
      | _ => cases ps <;> exact hsends.elim

/-! ## Two calls -/

/-- Two calls that send events to a module are started, with the numbers 0 and 1. -/
def sendPayloads (s : Session) (m : Address) (payload : Nat → List Word) :
    SessionRun (Except SessionError Nat) :=
  (({ session := s } : SessionRun (Except SessionError Nat)).park 0
    (Session.eventSendPayload m (payload 0)).run).park 1
    (Session.eventSendPayload m (payload 1)).run

/-- The transport has taken these packets.  Those of each of the two calls are the first ones that
its event is split into, and the call hands over the others next, unless it has failed. -/
structure Carries (s : Session) (m : Address) (payload : Nat → List Word)
    (taken : List (Nat × Packet)) (r : SessionRun (Except SessionError Nat)) : Prop where
  alone : ∀ id, 2 ≤ id → r.running.find? id = none
  session : s.Undisturbed r.session
  calls : ∀ z ∈ taken, z.1 < 2
  left : ∀ id < 2, r.Stands s.Undisturbed Operation.IsFailed id ∨
    ∃ rest, fragment m s.config.host (payload id) s.maxEventWords =
        .ok ((taken.filter (·.1 = id)).map Prod.snd ++ rest) ∧
      r.Stands s.Undisturbed (Operation.Sends s.Undisturbed rest) id

theorem carries_sendPayloads (s : Session) (m : Address) (payload : Nat → List Word) :
    Carries s m payload [] (sendPayloads s m payload) := by
  have hstands : ∀ id < 2, ∀ P, (Session.eventSendPayload m (payload id)).run.Leads
      s.Undisturbed P → (sendPayloads s m payload).Stands s.Undisturbed P id := by
    intro id hid P hP
    refine Or.inl ⟨_, ?_, rfl, hP⟩
    obtain rfl | rfl : id = 0 ∨ id = 1 := by omega
    · rfl
    · rfl
  refine ⟨fun id hid => ?_, .refl s, by simp, fun id hid => ?_⟩
  · rw [sendPayloads, find?_park, if_neg (by omega), find?_park, if_neg (by omega)]
    rfl
  · have hleads := leads_eventSendPayload s m (payload id)
    cases hpackets : fragment m s.config.host (payload id) s.maxEventWords with
    | error e =>
      refine Or.inl (hstands id hid _ (hleads.mono (fun _ hs => hs) ?_))
      rintro o (hfailed | ⟨ps, hps, -⟩)
      · exact hfailed
      · cases hps.symm.trans hpackets
    | ok ps =>
      refine Or.inr ⟨ps, rfl, hstands id hid _ (hleads.mono (fun _ hs => hs) ?_)⟩
      rintro o (hfailed | ⟨ps', hps', hsends⟩)
      · exact hfailed.sends ps
      · obtain rfl := Except.ok.inj (hps'.symm.trans hpackets)
        exact hsends

variable {s : Session} {m : Address} {payload : Nat → List Word} {taken : List (Nat × Packet)}
  {r : SessionRun (Except SessionError Nat)} {event : SessionEvent (Except SessionError Nat)}

/-- The next event adds the packet that the transport takes, if it takes one. -/
theorem Carries.act (h : Carries s m payload taken r) (hstart : ∀ i o, event ≠ .start i o) :
    Carries s m payload (taken ++ (r.carried? event).toList) (r.act event) := by
  have hlt : ∀ {id o}, r.running.find? id = some o → id < 2 := by
    intro id o ho
    by_contra hle
    cases (h.alone id (by omega)).symm.trans ho
  have hsession : r.session.Undisturbed (r.act event).session := by
    refine undisturbed_act (fun id o ho => ⟨s.Undisturbed, ?_⟩) event
    rcases h.left id (hlt ho) with hfailed | ⟨rest, -, hsends⟩
    · exact ⟨_, fun _ => Operation.IsFailed.isHalted, (hfailed.of_running ho).2⟩
    · exact ⟨_, fun _ => Operation.Sends.isHalted, (hsends.of_running ho).2⟩
  refine ⟨fun id hid => find?_act_eq_none (h.alone id hid) hstart, h.session.trans hsession,
    fun z hz => ?_, fun id hid => ?_⟩
  · rcases List.mem_append.mp hz with hz | hz
    · exact h.calls z hz
    · obtain ⟨-, next, ho⟩ := carried?_eq_some (Option.mem_toList.mp hz)
      exact hlt ho
  · rcases h.left id hid with hfailed | ⟨rest, hpackets, hsends⟩
    · exact Or.inl (hfailed.act_of_isFailed h.session hstart)
    · rcases hsends.act_of_sends h.session hstart with
        ⟨hnone, hsends⟩ | ⟨p, rest, rfl, hcarried, hsends⟩ | hfailed
      · have hothers : (r.carried? event).toList.filter (·.1 = id) = [] := by
          refine List.filter_eq_nil_iff.mpr fun z hz => ?_
          simpa using hnone z (Option.mem_toList.mp hz)
        refine Or.inr ⟨rest, ?_, hsends⟩
        rw [List.filter_append, hothers, List.append_nil, hpackets]
      · have hown : ((taken ++ (r.carried? event).toList).filter (·.1 = id)).map Prod.snd =
            (taken.filter (·.1 = id)).map Prod.snd ++ [p] := by
          rw [hcarried, Option.toList_some, List.filter_append, List.map_append,
            List.filter_cons_of_pos (by simp)]
          rfl
        refine Or.inr ⟨rest, ?_, hsends⟩
        rw [hown, hpackets, List.append_assoc]
        rfl
      · exact Or.inl hfailed

theorem Carries.after (h : Carries s m payload taken r)
    {events : List (SessionEvent (Except SessionError Nat))}
    (hstart : ∀ event ∈ events, ∀ i o, event ≠ .start i o) :
    Carries s m payload (taken ++ r.carried events) (r.after events) := by
  induction events generalizing r taken with
  | nil =>
    rw [carried, List.append_nil]
    exact h
  | cons event events ih =>
    have hnext := ih (h.act (hstart event List.mem_cons_self)) fun e he =>
      hstart e (List.mem_cons_of_mem event he)
    rwa [List.append_assoc] at hnext

end SessionRun

/-- Two calls send an event each to the same module, and whatever else happens meanwhile, both
succeed.  A receiver without a limit that is given what the transport has taken returns two events:
one of the packets up to the first that ends an event, and one of the others.  They have the
payloads that were sent if and only if no packet of the other call was taken before that first end,
or the payloads are such that it makes no difference. -/
theorem sent_events_whole_iff {s : Session} {m : Address} {payload : Nat → List Word}
    {events : List (SessionEvent (Except SessionError Nat))}
    (hstart : ∀ event ∈ events, ∀ i o, event ≠ .start i o) {first second : Nat}
    {r : SessionRun (Except SessionError Nat)}
    (hr : (SessionRun.sendPayloads s m payload).after events = r)
    (hfirst : r.results.find? 0 = some (.ok first))
    (hsecond : r.results.find? 1 = some (.ok second)) :
    let taken := (SessionRun.sendPayloads s m payload).carried events
    ∃ front x back, taken = front ++ x :: back ∧ (∀ y ∈ front, y.2.continues = true) ∧
      x.2.kind = .event .eventLast ∧
      (Reassembler.initial none).events (taken.map Prod.snd) =
        [⟨s.config.host, m, .eventLast, payloads ((front ++ [x]).map Prod.snd), front.length + 1⟩,
          ⟨s.config.host, m, .eventLast, payloads (back.map Prod.snd), back.length⟩] ∧
      ([payloads ((front ++ [x]).map Prod.snd), payloads (back.map Prod.snd)].Perm
          [payload 0, payload 1] ↔
        (∀ y ∈ front, y.1 = x.1) ∨
          payloads ((front ++ [x]).map Prod.snd) = payload (1 - x.1) ∧
            payloads (back.map Prod.snd) = payload x.1) := by
  subst hr
  intro taken
  have h := (SessionRun.carries_sendPayloads s m payload).after hstart
  rw [List.nil_append] at h
  have hall : ∀ id < 2, fragment m s.config.host (payload id) s.maxEventWords =
      .ok ((taken.filter (·.1 = id)).map Prod.snd) := by
    intro id hid
    obtain ⟨count, hresult⟩ : ∃ count, ((SessionRun.sendPayloads s m payload).after
        events).results.find? id = some (.ok count) := by
      obtain rfl | rfl : id = 0 ∨ id = 1 := by omega
      · exact ⟨first, hfirst⟩
      · exact ⟨second, hsecond⟩
    rcases h.left id hid with hfailed | ⟨rest, hpackets, hsends⟩
    · exact (hfailed.of_result hresult).elim
    · cases rest with
      | nil => rwa [List.append_nil] at hpackets
      | cons p rest => exact (hsends.of_result hresult).elim
  cases hwords : s.maxEventWords with
  | zero =>
    have hzero := hall 0 (by omega)
    rw [hwords] at hzero
    cases hzero
  | succ limit =>
    have hown : ∀ id < 2, (taken.filter (·.1 = id)).map Prod.snd =
        fragments m s.config.host .eventLast limit (payload id) := by
      intro id hid
      have hfragment := hall id hid
      rw [hwords] at hfragment
      exact (Except.ok.inj hfragment).symm
    exact interleaved_whole_iff rfl h.calls hown

/-- Two events of two words each are sent one word at a time, and the transport takes the packets in
turn.  The receiver gets one event of three words and one of a single word. -/
theorem sent_events_whole_iff_torn :
    let s : Session := { Session.initial (.ofSettings {}) with
      connected := true, maxPacketLen := 4, directory := Table.empty.insert 1 (.unknown 1) }
    let payload : Nat → List Word := fun id => if id = 0 then [1, 2] else [3, 4]
    let taken : Nat → SessionEvent (Except SessionError Nat) := fun id => .hear id (.sent (.ok ()))
    let events := [.goOn 0, .goOn 0, .goOn 1, .goOn 1, taken 0, taken 1, .goOn 0, .goOn 1,
      taken 0, taken 1, .goOn 0, .goOn 0, .goOn 1, .goOn 1]
    let r := (SessionRun.sendPayloads s 1 payload).after events
    let carried := (SessionRun.sendPayloads s 1 payload).carried events
    (∀ event ∈ events, ∀ i o, event ≠ .start i o) ∧
      r.results.find? 0 = some (.ok 2) ∧ r.results.find? 1 = some (.ok 2) ∧
      (Reassembler.initial none).events (carried.map Prod.snd) =
        [⟨0x3ff, 1, .eventLast, [1, 3, 2], 3⟩, ⟨0x3ff, 1, .eventLast, [4], 1⟩] ∧
      ∃ front x back, carried = front ++ x :: back ∧ ∃ y ∈ front, y.1 ≠ x.1 := by
  intro s payload taken events r carried
  have hstart : ∀ event ∈ events, ∀ i o, event ≠ .start i o := by
    simp [events, taken]
  have hfirst : r.results.find? 0 = some (.ok 2) := by decide +kernel
  have hsecond : r.results.find? 1 = some (.ok 2) := by decide +kernel
  have htorn : (Reassembler.initial none).events (carried.map Prod.snd) =
      [⟨0x3ff, 1, .eventLast, [1, 3, 2], 3⟩, ⟨0x3ff, 1, .eventLast, [4], 1⟩] := by
    decide +kernel
  obtain ⟨front, x, back, hcarried, -, -, hevents, hwhole⟩ :=
    sent_events_whole_iff hstart (rfl : _ = r) hfirst hsecond
  refine ⟨hstart, hfirst, hsecond, htorn, front, x, back, hcarried, ?_⟩
  by_contra hnone
  have hpayloads : [payloads ((front ++ [x]).map Prod.snd), payloads (back.map Prod.snd)] =
      [[1, 3, 2], [4]] := congrArg (List.map Event.payload) (hevents.symm.trans htorn)
  have hperm := hwhole.mpr (Or.inl fun y hy => not_not.mp fun hne => hnone ⟨y, hy, hne⟩)
  rw [hpayloads] at hperm
  exact absurd hperm (by decide)

end ProbeNet
