import ProbeNet.Proofs.Engine.Serving

/-!
# What an engine counts

An engine counts the packets that it reads, each once: as a request when it takes the packet
apart, or as discarded.  It makes one answer for each request that it has counted.

`Engine.Accounts` says so for the flits that an engine has taken and sent and for the answers
that it has made, with the packet in hand accounted for, and `Accounts.tick` carries it over one
step.
-/

namespace ProbeNet

open Register

/-- How many packets the engine has read and not counted. -/
@[simp] def EnginePhase.unread : EnginePhase → Nat
  | .decode _ => 1
  | .idle | .dispatch .. | .await .. | .conclude .. | .respond => 0

/-- How many requests the engine has counted and not answered. -/
@[simp] def EnginePhase.owed : EnginePhase → Nat
  | .dispatch .. | .await .. | .conclude .. => 1
  | .idle | .decode _ | .respond => 0

namespace Engine

/-- The answer that the engine makes in its next step. -/
def answer? (e : Engine ModuleBackend) : Option Packet :=
  match e.phase with
  | .conclude request t (.ok v) => some (t.successResponse request v)
  | .conclude request t (.error _) => some (t.errorResponse request)
  | .idle | .decode _ | .dispatch .. | .await .. | .respond => none

/-! ## What a step counts -/

variable {e : Engine ModuleBackend}

/-- A reading engine counts a run that is no packet. -/
theorem stepIdle_counts (hphase : e.phase = .idle) (input : Option Flit) :
    (e.stepIdle input).stats.requests = e.stats.requests ∧
      (e.stepIdle input).stats.discarded + (e.stepIdle input).phase.unread =
        e.stats.discarded + input.toList.countP Flit.last ∧
      (e.stepIdle input).phase.owed = 0 ∧ (e.stepIdle input).writer = e.writer := by
  cases input with
  | none =>
    obtain ⟨reader, -, hstep⟩ := e.stepIdle_none
    rw [hstep]
    simp [hphase]
  | some f =>
    cases hlast : f.last with
    | false => simp [stepIdle, PacketReader.tick, hlast, hphase]
    | true =>
      cases hp : Packet.ofFlits (e.reader.flits ++ [f]) <;>
        simp [stepIdle, PacketReader.tick, hlast, hp, hphase]

/-- The packet that has been read is counted when it is taken apart. -/
theorem stepDecode_counts (e : Engine ModuleBackend) (request : Packet) :
    (e.stepDecode request).stats.requests + (e.stepDecode request).stats.discarded =
        e.stats.requests + e.stats.discarded + 1 ∧
      (e.stepDecode request).phase.unread = 0 ∧
      (e.stepDecode request).stats.requests =
        e.stats.requests + (e.stepDecode request).phase.owed ∧
      (e.stepDecode request).writer = e.writer := by
  unfold stepDecode
  split
  · split
    · split
      · exact ⟨Nat.add_right_comm _ _ _, rfl, rfl, rfl⟩
      · exact ⟨Nat.add_right_comm _ _ _, rfl, rfl, rfl⟩
    · exact ⟨rfl, rfl, rfl, rfl⟩
  · exact ⟨rfl, rfl, rfl, rfl⟩

/-- Nothing is counted while a request is served. -/
theorem stepDispatch_counts (e : Engine ModuleBackend) (request : Packet) (t : Transaction) :
    (e.stepDispatch request t).stats = e.stats ∧ (e.stepDispatch request t).phase.unread = 0 ∧
      (e.stepDispatch request t).phase.owed = 1 ∧
      (e.stepDispatch request t).writer = e.writer := by
  unfold stepDispatch
  split
  · exact ⟨rfl, rfl, rfl, rfl⟩
  · split
    · split
      · exact ⟨rfl, rfl, rfl, rfl⟩
      · exact ⟨rfl, rfl, rfl, rfl⟩
    · exact ⟨rfl, rfl, rfl, rfl⟩

theorem stepAwait_counts {request : Packet} {t : Transaction} {responder : Responder}
    (hphase : e.phase = .await request t responder) :
    (e.stepAwait request t responder).stats = e.stats ∧
      (e.stepAwait request t responder).phase.unread = 0 ∧
      (e.stepAwait request t responder).phase.owed = 1 ∧
      (e.stepAwait request t responder).writer = e.writer := by
  cases responder with
  | base => exact ⟨rfl, rfl, rfl, rfl⟩
  | backend =>
    obtain ⟨-, hpoll⟩ | ⟨b, hpoll, -, -⟩ := e.backend.poll_cases t
    · simp only [stepAwait, hpoll]
      exact ⟨trivial, rfl, rfl, trivial⟩
    · simp only [stepAwait, hpoll, hphase]
      exact ⟨trivial, rfl, rfl, trivial⟩

/-- The answer that is made waits in the writer. -/
theorem stepConclude_counts {request : Packet} {t : Transaction}
    {outcome : Except Refusal Value} (hphase : e.phase = .conclude request t outcome) :
    ∃ answer, e.answer? = some answer ∧
      (e.stepConclude request t outcome).stats.requests = e.stats.requests ∧
      (e.stepConclude request t outcome).stats.discarded = e.stats.discarded ∧
      (e.stepConclude request t outcome).writer = e.writer.enqueue answer := by
  cases outcome with
  | ok v => exact ⟨_, by simp only [answer?, hphase], rfl, rfl, rfl⟩
  | error refusal => exact ⟨_, by simp only [answer?, hphase], rfl, rfl, rfl⟩

/-- What has been sent is no longer in the writer. -/
theorem stepRespond_counts (e : Engine ModuleBackend) (ready : Bool) :
    (e.stepRespond ready).1.stats = e.stats ∧ (e.stepRespond ready).1.phase.unread = 0 ∧
      (e.stepRespond ready).1.phase.owed = 0 ∧
      (if ready then (e.stepRespond ready).2.toList else []) ++
        (e.stepRespond ready).1.writer.flits = e.writer.flits := by
  refine ⟨rfl, ?_, ?_, e.writer.flits_popIf ready⟩
  · simp only [stepRespond]
    split <;> rfl
  · simp only [stepRespond]
    split <;> rfl

/-! ## The account of an engine -/

/-- The engine has taken the flits `read`, made the answers `answered` and sent the flits
`sent` of them, and it has counted what it has read. -/
structure Accounts (e : Engine ModuleBackend) (read sent : List Flit) (answered : List Packet) :
    Prop where
  packets : read.countP Flit.last = e.stats.requests + e.stats.discarded + e.phase.unread
  requests : e.stats.requests = answered.length + e.phase.owed
  answers : Packet.stream answered = sent ++ e.writer.flits

theorem accounts_initial (config : EngineConfig) (backend : ModuleBackend) :
    (initial config backend).Accounts [] [] [] := ⟨rfl, rfl, rfl⟩

variable {read sent : List Flit} {answered : List Packet}

/-- The account of an engine that has taken some flits and has neither made an answer nor sent
a part of one. -/
theorem Accounts.of_counts (a : e.Accounts read sent answered) {e' : Engine ModuleBackend}
    {more : List Flit}
    (hpackets : e'.stats.requests + e'.stats.discarded + e'.phase.unread =
      e.stats.requests + e.stats.discarded + e.phase.unread + more.countP Flit.last)
    (hrequests : e'.stats.requests + e.phase.owed = e.stats.requests + e'.phase.owed)
    (hwriter : e'.writer = e.writer) : e'.Accounts (read ++ more) sent answered where
  packets := by rw [List.countP_append, a.packets, hpackets]
  requests := by
    have hbefore := a.requests
    omega
  answers := by rw [hwriter, a.answers]

/-- Nothing is counted while a request is served. -/
theorem Accounts.serve (a : e.Accounts read sent answered) {e' : Engine ModuleBackend}
    (hunread : e.phase.unread = 0) (howed : e.phase.owed = 1)
    (hcounts : e'.stats = e.stats ∧ e'.phase.unread = 0 ∧ e'.phase.owed = 1 ∧
      e'.writer = e.writer) : e'.Accounts (read ++ []) sent answered := by
  obtain ⟨hstats, hunread', howed', hwriter⟩ := hcounts
  refine a.of_counts ?_ ?_ hwriter
  · rw [hstats, hunread, hunread']
    rfl
  · rw [hstats, howed, howed']

/-- The engine makes the answer to the request in hand and begins to send it. -/
theorem Accounts.conclude (a : e.Accounts read sent answered) {request : Packet}
    {t : Transaction} {outcome : Except Refusal Value}
    (hphase : e.phase = .conclude request t outcome) :
    (e.stepConclude request t outcome).Accounts read sent (answered ++ e.answer?.toList) := by
  obtain ⟨answer, hanswer, hrequests, hdiscarded, hwriter⟩ := stepConclude_counts hphase
  have hphase' : (e.stepConclude request t outcome).phase = .respond := by
    cases outcome <;> rfl
  obtain ⟨hpackets, hbefore, hanswers⟩ := a
  rw [hphase] at hpackets hbefore
  rw [hanswer]
  refine ⟨?_, ?_, ?_⟩
  · rw [hphase', hrequests, hdiscarded, hpackets]
    rfl
  · rw [hphase', hrequests, hbefore, List.length_append]
    rfl
  · rw [hwriter, Packet.stream_append, hanswers, List.append_assoc]
    simp [PacketWriter.enqueue]

/-- The engine sends a flit of an answer, if the sink is ready. -/
theorem Accounts.respond (a : e.Accounts read sent answered) (hphase : e.phase = .respond)
    (ready : Bool) :
    (e.stepRespond ready).1.Accounts read
      (sent ++ if ready then (e.stepRespond ready).2.toList else []) answered := by
  obtain ⟨hstats, hunread, howed, hwriter⟩ := e.stepRespond_counts ready
  obtain ⟨hpackets, hrequests, hanswers⟩ := a
  rw [hphase] at hpackets hrequests
  refine ⟨?_, ?_, ?_⟩
  · rw [hstats, hunread, hpackets]
    rfl
  · rw [hstats, howed, hrequests]
    rfl
  · rw [List.append_assoc, hwriter, hanswers]

/-- One step between any source and any sink keeps the account. -/
theorem Accounts.tick (a : e.Accounts read sent answered) (input : Option Flit) (ready : Bool) :
    (e.tick input ready).engine.Accounts
      (read ++ if (e.tick input ready).taken then input.toList else [])
      (sent ++ if ready then (e.tick input ready).offered.toList else [])
      (answered ++ e.answer?.toList) := by
  cases hphase : e.phase with
  | idle =>
    obtain ⟨hrequests, hpackets, howed, hwriter⟩ := stepIdle_counts hphase input
    have hnext : (e.stepIdle input).Accounts (read ++ input.toList) sent answered := by
      refine a.of_counts ?_ ?_ hwriter
      · rw [hphase]
        show _ = e.stats.requests + e.stats.discarded + 0 + _
        omega
      · rw [hphase, hrequests, howed]
        rfl
    simp only [Engine.tick, answer?, hphase, ite_self, Option.toList_none, List.append_nil]
    cases input with
    | none => exact hnext
    | some f => exact hnext
  | decode request =>
    obtain ⟨hpackets, hunread, hrequests, hwriter⟩ := e.stepDecode_counts request
    have hnext : (e.stepDecode request).Accounts (read ++ []) sent answered := by
      refine a.of_counts ?_ ?_ hwriter
      · rw [hphase, hunread, hpackets]
        rfl
      · rw [hphase, hrequests]
        rfl
    simpa only [Engine.tick, answer?, hphase, ite_self, Option.toList_none, List.append_nil,
      Bool.false_eq_true, if_false] using hnext
  | dispatch request t =>
    have hnext := a.serve (by rw [hphase]; rfl) (by rw [hphase]; rfl)
      (e.stepDispatch_counts request t)
    simpa only [Engine.tick, answer?, hphase, ite_self, Option.toList_none, List.append_nil,
      Bool.false_eq_true, if_false] using hnext
  | await request t responder =>
    have hnext := a.serve (by rw [hphase]; rfl) (by rw [hphase]; rfl) (stepAwait_counts hphase)
    simpa only [Engine.tick, answer?, hphase, ite_self, Option.toList_none, List.append_nil,
      Bool.false_eq_true, if_false] using hnext
  | conclude request t outcome =>
    have hphase' : (e.stepConclude request t outcome).phase = .respond := by
      cases outcome <;> rfl
    have hnext := (a.conclude hphase).respond hphase' ready
    simpa only [Engine.tick, hphase, Bool.false_eq_true, if_false, List.append_nil] using hnext
  | respond =>
    have hnext := a.respond hphase ready
    simpa only [Engine.tick, answer?, hphase, Option.toList_none, List.append_nil,
      Bool.false_eq_true, if_false] using hnext

end Engine

end ProbeNet
