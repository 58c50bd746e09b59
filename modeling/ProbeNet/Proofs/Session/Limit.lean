import ProbeNet.Proofs.Session.Execution

/-!
# Packets that a session hands over

The target drops a packet that is longer than the limit that it reports, so a
session should not send one.  It checks the length of the events that it sends,
and splits those that may have any length, but not the length of register requests.
`handed_exceeds_limit_iff` says that of all packets that are handed to the transport
exactly the write requests that do not fit exceed the limit.
-/

namespace ProbeNet

open Register

/-! ## Calls -/

/-- What a call returns. -/
inductive Reply where
  | connected (report : Session.DiscoveryReport)
  | value (v : Value)
  | packets (count : Nat)
  | done
  deriving DecidableEq, Repr

/-- What a call ends with. -/
abbrev CallResult := Except SessionError Reply

/-- The calls for registers and the calls that send events. -/
inductive SessionCall where
  | registerRead (m : Address) (width : Width) (address : Word)
  | registerWrite (m : Address) (width : Width) (address : Word) (value : Value)
  | registerSetBit (m : Address) (address : Word) (bit : Nat) (on : Bool)
  | setEventDestination (m : Address)
  | setEventActive (m : Address) (active : Bool)
  | eventSend (p : Packet)
  | eventSendPayload (m : Address) (payload : List Word)

namespace SessionCall

def perform : SessionCall → SessionM Reply
  | registerRead m width address => do return .value (← Session.registerRead m width address)
  | registerWrite m width address value => do
    Session.registerWrite m width address value
    return .done
  | registerSetBit m address bit on => do
    Session.registerSetBit m address bit on
    return .done
  | setEventDestination m => do
    Session.setEventDestination m
    return .done
  | setEventActive m active => do
    Session.setEventActive m active
    return .done
  | eventSend p => do
    Session.eventSend p
    return .done
  | eventSendPayload m payload => do return .packets (← Session.eventSendPayload m payload)

theorem keeps_reply {β : Type} {x : SessionM β} {limit : Nat}
    (h : x.run.Keeps .connected (fun _ _ => True) limit) (f : β → Reply) :
    (x >>= fun b => pure (f b)).run.Keeps .connected (fun _ _ => True) limit :=
  SessionM.keeps_bind (h.mono (fun _ _ => id) (fun _ _ => id) fun r _ _ => by cases r <;> trivial)

theorem keeps_reply_of_quiet {β : Type} {x : SessionM β} {limit : Nat} (h : x.Quiet)
    (f : β → Reply) : (x >>= fun b => pure (f b)).run.Keeps .connected (fun _ _ => True) limit :=
  h.keeps_bind (fun _ => rfl) (fun _ => trivial) fun _ => trivial

/-- No call hands over a packet that is too long, or changes the limit. -/
theorem keeps_perform (call : SessionCall) (limit : Nat) :
    call.perform.run.Keeps .connected (fun _ _ => True) limit := by
  cases call with
  | registerRead m width address =>
    exact keeps_reply_of_quiet (Session.quiet_registerRead m width address) _
  | registerWrite m width address value =>
    exact keeps_reply_of_quiet (Session.quiet_registerWrite m width address value) _
  | registerSetBit m address bit on =>
    exact keeps_reply_of_quiet (Session.quiet_registerSetBit m address bit on) _
  | setEventDestination m => exact keeps_reply_of_quiet (Session.quiet_setEventDestination m) _
  | setEventActive m active => exact keeps_reply_of_quiet (Session.quiet_setEventActive m active) _
  | eventSend p => exact keeps_reply (Session.keeps_eventSend p) _
  | eventSendPayload m payload => exact keeps_reply (Session.keeps_eventSendPayload m payload) _

end SessionCall

/-! ## While a connection is made -/

namespace SessionRun

def connect : Operation CallResult :=
  (do return .connected (← Session.connect) : SessionM Reply).run

/-- A session that begins to connect, and does nothing else. -/
def connecting (s : Session) (id : Nat) : SessionRun CallResult :=
  { session := s, running := Table.empty.insert id connect }

/-- Connecting that has succeeded leaves the limit that it reports. -/
def Found (answer : CallResult) (limit : Nat) : Prop :=
  ∀ report, answer = .ok (.connected report) → Session.Finds (.ok report) limit

/-- What a run keeps in which nothing is started but connecting. -/
structure Connects (id : Nat) (r : SessionRun CallResult) : Prop where
  alone : ∀ i o, r.running.find? i = some o → i = id
  keeps : ∀ o, r.running.find? id = some o → o.Keeps .connecting Found r.session.maxPacketLen
  found : ∀ a, r.results.find? id = some a →
    r.running.find? id = none ∧ Found a r.session.maxPacketLen
  handed : ∀ p ∈ r.handed, p.IsRequest

variable {r r' : SessionRun CallResult} {id limit : Nat}

theorem connects_connecting (s : Session) (id : Nat) : Connects id (connecting s id) := by
  have hfind : ∀ i, (connecting s id).running.find? i = if id = i then some connect else none :=
    fun i => Table.find?_insert .empty id i _
  refine ⟨fun i o ho => ?_, fun o ho => ?_, fun a ha => ?_, fun p hp => ?_⟩
  · rw [hfind] at ho
    split at ho
    · rename_i heq
      exact heq.symm
    · cases ho
  · rw [hfind, if_pos rfl] at ho
    rw [← Option.some.inj ho]
    refine SessionM.keeps_bind (Session.keeps_connect.mono (fun _ _ h => h) (fun _ _ h => h)
      fun a l ha => ?_)
    cases a with
    | ok report =>
      intro report' heq
      rw [← Reply.connected.inj (Except.ok.inj heq)]
      exact ha
    | error e =>
      intro report' heq
      cases heq
  · cases ha
  · cases hp

/-- What one event keeps. -/
theorem Connects.step (h : Connects id r) (hsteps : r.Steps r') : Connects id r' := by
  cases hsteps with
  | around session ps hlimit hps =>
    refine ⟨h.alone, fun o ho => ?_, fun a ha => ?_, fun p hp => ?_⟩
    · show o.Keeps .connecting Found session.maxPacketLen
      rw [hlimit]
      exact h.keeps o ho
    · show _ ∧ Found a session.maxPacketLen
      rw [hlimit]
      exact h.found a ha
    · exact (List.mem_append.mp hp).elim (h.handed p) (hps p)
  | moves i o o' session ps ho hmoves =>
    obtain rfl := h.alone i o ho
    obtain ⟨hkeeps, -, hsends⟩ := hmoves _ _ (h.keeps o ho)
    refine ⟨fun j q hq => ?_, fun q hq => ?_, fun a ha => ?_, fun p hp => ?_⟩
    · rw [find?_park] at hq
      split at hq
      · rename_i heq
        exact heq.symm
      · exact h.alone j q hq
    · rw [find?_park, if_pos rfl] at hq
      rw [← Option.some.inj hq]
      exact hkeeps
    · rw [(h.found a ha).1] at ho
      cases ho
    · rcases List.mem_append.mp hp with hp | hp
      · exact h.handed p hp
      · exact (hsends p hp).elim
  | ends i a ho =>
    obtain rfl := h.alone i _ ho
    have hfind : ∀ j, (r.running.erase i).find? j = if i = j then none else r.running.find? j :=
      fun j => Table.find?_erase ..
    refine ⟨fun j q hq => ?_, fun q hq => ?_, fun b hb => ⟨?_, ?_⟩, h.handed⟩
    · replace hq : (r.running.erase i).find? j = some q := hq
      rw [hfind] at hq
      split at hq
      · cases hq
      · exact h.alone j q hq
    · replace hq : (r.running.erase i).find? i = some q := hq
      rw [hfind, if_pos rfl] at hq
      cases hq
    · show (r.running.erase i).find? i = none
      rw [hfind, if_pos rfl]
    · replace hb : (r.results.insert i a).find? i = some b := hb
      rw [Table.find?_insert, if_pos rfl] at hb
      rw [← Option.some.inj hb]
      exact h.keeps _ ho

/-- What a run keeps in which nothing else is started. -/
theorem Connects.after (h : Connects id r) {events : List (SessionEvent CallResult)}
    (hnone : ∀ i o, .start i o ∉ events) : Connects id (r.after events) := by
  induction events generalizing r with
  | nil => exact h
  | cons event events ih =>
    have hlater : ∀ i o, .start i o ∉ events := fun i o hmem =>
      hnone i o (List.mem_cons_of_mem event hmem)
    refine ih ?_ hlater
    rcases r.act_cases event with ⟨i, o, rfl, -⟩ | hsteps
    · exact absurd List.mem_cons_self (hnone i o)
    · exact h.step hsteps

/-! ## While there is a connection -/

/-- What a run keeps as long as nothing changes the limit. -/
structure Within (r : SessionRun CallResult) (limit : Nat) : Prop where
  stays : r.session.maxPacketLen = limit
  keeps : ∀ i o, r.running.find? i = some o → o.Keeps .connected (fun _ _ => True) limit
  handed : ∀ p ∈ r.handed, p.IsRequest ∨ Terms.connected.sends limit p

/-- A connection has been made: nothing is under way, and the limit has been found. -/
theorem Connects.within (h : Connects id r) {report : Session.DiscoveryReport}
    (hreport : r.results.find? id = some (.ok (.connected report))) :
    r.Within report.maxPacketLen ∧ maxPayloadWords report.maxPacketLen ≠ 0 := by
  obtain ⟨hended, hfound⟩ := h.found _ hreport
  obtain ⟨hlimit, hroom⟩ := hfound report rfl
  refine ⟨⟨hlimit.symm, fun i o ho => ?_, fun p hp => Or.inl (h.handed p hp)⟩, ?_⟩
  · rw [h.alone i o ho, hended] at ho
    cases ho
  · rw [hlimit]
    exact hroom

theorem Within.park (h : r.Within limit) (i : Nat) {o : Operation CallResult}
    (ho : o.Keeps .connected (fun _ _ => True) limit) : (r.park i o).Within limit := by
  refine ⟨h.stays, fun j q hq => ?_, h.handed⟩
  rw [find?_park] at hq
  split at hq
  · rw [← Option.some.inj hq]
    exact ho
  · exact h.keeps j q hq

theorem Within.step (h : r.Within limit) (hsteps : r.Steps r') : r'.Within limit := by
  cases hsteps with
  | around session ps hlimit hps =>
    refine ⟨hlimit.trans h.stays, h.keeps, fun p hp => ?_⟩
    exact (List.mem_append.mp hp).elim (h.handed p) fun hp => Or.inl (hps p hp)
  | moves i o o' session ps ho hmoves =>
    rw [h.stays] at hmoves
    obtain ⟨hkeeps, hlimit, hsends⟩ := hmoves _ _ (h.keeps i o ho)
    have hsame : session.maxPacketLen = limit := hlimit.elim (fun h => h) Eq.symm
    have hwithin : ({ r with session }.hand ps).Within limit := ⟨hsame, h.keeps, fun p hp =>
      (List.mem_append.mp hp).elim (h.handed p) fun hp => Or.inr (hsends p hp)⟩
    exact hwithin.park i (hsame ▸ hkeeps)
  | ends i a ho =>
    refine ⟨h.stays, fun j q hq => ?_, h.handed⟩
    replace hq : (r.running.erase i).find? j = some q := hq
    rw [Table.find?_erase] at hq
    split at hq
    · cases hq
    · exact h.keeps j q hq

/-- As long as only calls are started, the limit stays and is kept. -/
theorem Within.after (h : r.Within limit) {events : List (SessionEvent CallResult)}
    (hcalls : ∀ i o, .start i o ∈ events → ∃ call : SessionCall, o = call.perform.run) :
    (r.after events).Within limit := by
  induction events generalizing r with
  | nil => exact h
  | cons event events ih =>
    refine ih ?_ fun i o hmem => hcalls i o (List.mem_cons_of_mem event hmem)
    rcases r.act_cases event with ⟨i, o, rfl, hstart⟩ | hsteps
    · obtain ⟨call, rfl⟩ := hcalls i o List.mem_cons_self
      rw [hstart]
      exact h.park i (call.keeps_perform limit)
    · exact h.step hsteps

end SessionRun

/-! ## Packets that exceed the limit -/

/-- A request has a word for the address, and a write has the words of its value. -/
theorem Packet.IsRequest.exceeds_iff {p : Packet} (h : p.IsRequest) {limit : Nat}
    (hroom : maxPayloadWords limit ≠ 0) :
    limit < p.lenWords ↔ ∃ w, p.kind = .register (.writeRequest w) ∧
      limit < headerWords + 1 + w.words := by
  obtain ⟨t, m, host, rfl⟩ := h
  unfold maxPayloadWords at hroom
  unfold Packet.lenWords Transaction.toRequest Transaction.requestKind Transaction.requestPayload
  cases t.access with
  | read =>
    simp
    omega
  | write v => simp [Nat.add_assoc, Nat.add_comm]

/-- Of the packets that a run has handed over those exceed the limit that are write
requests whose value does not fit. -/
theorem SessionRun.Within.exceeds_iff {r : SessionRun CallResult} {limit : Nat}
    (h : r.Within limit) (hroom : maxPayloadWords limit ≠ 0) {p : Packet} (hp : p ∈ r.handed) :
    limit < p.lenWords ↔ ∃ w, p.kind = .register (.writeRequest w) ∧
      limit < headerWords + 1 + w.words := by
  rcases h.handed p hp with hrequest | ⟨hclass, hlen⟩
  · exact hrequest.exceeds_iff hroom
  · constructor
    · intro hlong
      omega
    · rintro ⟨w, hkind, -⟩
      exact absurd (congrArg PacketKind.packetClass hkind) hclass

/-- Take any session that connects, whatever the target answers, and afterwards any calls
for registers and events, of which many may run at the same time.  Once connecting has
returned, the limit stays the one that it reports.  Of all packets that have been handed
to the transport since then, or while connecting, those exceed the limit that are write
requests whose value does not fit. -/
theorem handed_exceeds_limit_iff {s : Session} {id : Nat}
    {before after : List (SessionEvent CallResult)} {report : Session.DiscoveryReport}
    (hbefore : ∀ i o, .start i o ∉ before)
    (hreport : ((SessionRun.connecting s id).after before).results.find? id =
      some (.ok (.connected report)))
    (hafter : ∀ i o, .start i o ∈ after → ∃ call : SessionCall, o = call.perform.run) :
    ((SessionRun.connecting s id).after (before ++ after)).session.maxPacketLen =
        report.maxPacketLen ∧
      ∀ p ∈ ((SessionRun.connecting s id).after (before ++ after)).handed,
        (report.maxPacketLen < p.lenWords ↔ ∃ w, p.kind = .register (.writeRequest w) ∧
          report.maxPacketLen < headerWords + 1 + w.words) := by
  obtain ⟨hwithin, hroom⟩ :=
    ((SessionRun.connects_connecting s id).after hbefore).within hreport
  rw [SessionRun.after_append]
  have hlater := hwithin.after hafter
  exact ⟨hlater.stays, fun p hp => hlater.exceeds_iff hroom hp⟩

/-- A subnet reports that its packets have at most four words.  A write of 16 bits is handed
over all the same, as a packet of five words. -/
theorem handed_exceeds_limit_iff_write :
    let s := Session.initial (.ofSettings {})
    let access (id : Nat) (v : Value) : List (SessionEvent CallResult) :=
      List.replicate 4 (.goOn id) ++ [.submit id, .work 0 .take, .work 0 (.send 400),
        .arrive { dest := 0x3ff, src := 0, kind := .register (.readSuccess .w16),
                  payload := v.toWords .w16 },
        .work 0 (.conclude 0), .hear id (.accessed (.ok v))]
    let before := [1, 4, 7, 1, 2].flatMap (access 0) ++ List.replicate 4 (.goOn 0)
    let write := SessionCall.registerWrite 0 .w16 4 1
    let after := [.start 1 write.perform.run, .goOn 1, .goOn 1, .submit 1, .work 0 .take,
      .work 0 (.send 400)]
    let report : Session.DiscoveryReport := { modules := 1, maxPacketLen := 4, undescribed := [] }
    let p : Packet :=
      { dest := 0, src := 0x3ff, kind := .register (.writeRequest .w16), payload := [4, 1] }
    (∀ i o, .start i o ∉ before) ∧
      ((SessionRun.connecting s 0).after before).results.find? 0 =
        some (.ok (.connected report)) ∧
      (∀ i o, .start i o ∈ after → ∃ call : SessionCall, o = call.perform.run) ∧
      p ∈ ((SessionRun.connecting s 0).after (before ++ after)).handed ∧
      report.maxPacketLen < p.lenWords := by
  intro s access before write after report p
  have hbefore : ∀ i o, .start i o ∉ before := by
    intro i o
    simp [before, access]
  have hreport : ((SessionRun.connecting s 0).after before).results.find? 0 =
      some (.ok (.connected report)) := by
    decide +kernel
  have hafter : ∀ i o, .start i o ∈ after → ∃ call : SessionCall, o = call.perform.run := by
    intro i o h
    simp [after] at h
    exact ⟨write, h.2⟩
  have hmem : p ∈ ((SessionRun.connecting s 0).after (before ++ after)).handed := by
    decide +kernel
  have hexceeds := (handed_exceeds_limit_iff hbefore hreport hafter).2 p hmem
  exact ⟨hbefore, hreport, hafter, hmem, hexceeds.mpr ⟨.w16, rfl, by decide⟩⟩

/-! ## What an executive hands over -/

namespace Executive

open SessionRun

/-- Runs calls in batches.  The calls of a batch run at the same time. -/
def runBatches (x : Executive CallResult) (batches : List (List SessionCall)) :
    Executive CallResult :=
  batches.foldl (fun x calls => (x.runAll (calls.map fun call => call.perform.run)).1) x

theorem explains_runBatches {r : SessionRun CallResult} {x : Executive CallResult}
    (h : r.Explains (fun o => ∃ call : SessionCall, o = call.perform.run) x)
    (batches : List (List SessionCall)) :
    r.Explains (fun o => ∃ call : SessionCall, o = call.perform.run) (x.runBatches batches) := by
  refine Explains.foldl (fun x calls hx => hx.runAll fun o ho => ?_) batches h
  obtain ⟨call, -, hcall⟩ := List.mem_map.mp ho
  exact ⟨call, hcall.symm⟩

/-- An executive that has connected to its target and then runs calls keeps the limit that
the target reports, and hands over no packet that exceeds it but write requests whose
value does not fit. -/
theorem packets_exceed_limit_iff {s : Session} {peer : Peer} {report : Session.DiscoveryReport}
    (hreport : (({ session := s, peer } : Executive CallResult).run connect).2 =
      some (.ok (.connected report))) (batches : List (List SessionCall)) :
    let x := (({ session := s, peer } : Executive CallResult).run connect).1.runBatches batches
    x.session.maxPacketLen = report.maxPacketLen ∧
      ∀ p, p ∈ x.transport.second.queue ∨ p ∈ x.received →
        (report.maxPacketLen < p.lenWords ↔ ∃ w, p.kind = .register (.writeRequest w) ∧
          report.maxPacketLen < headerWords + 1 + w.words) := by
  intro x
  have hconnected : (connecting s 0).Explains (fun _ => False)
      (({ session := s, peer } : Executive CallResult).runAll [connect]).1 := by
    refine Explains.runEnrolled (Tracks.explains ?_)
    refine ⟨rfl, fun id => ?_, rfl, fun p hp => ?_⟩
    · show (Table.empty.insert 0 connect).find? id = ((Table.empty.insert 0 _).find? id).map _
      rw [Table.find?_insert, Table.find?_insert]
      split <;> rfl
    · rcases hp with hp | hp <;> cases hp
  obtain ⟨before, hbefore, htracks⟩ := hconnected
  have hresult : ((connecting s 0).after before).results.find? 0 =
      some (.ok (.connected report)) := by
    rw [htracks.results]
    exact hreport
  obtain ⟨hwithin, hroom⟩ := ((connects_connecting s 0).after hbefore).within hresult
  obtain ⟨after, hafter, htracks⟩ := explains_runBatches htracks.explains batches
  have hlater := hwithin.after hafter
  exact ⟨htracks.session ▸ hlater.stays, fun p hp =>
    hlater.exceeds_iff hroom (htracks.handed p hp)⟩

end Executive

end ProbeNet
