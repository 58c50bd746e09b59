import ProbeNet.Proofs.Register.Access
import ProbeNet.Proofs.Stream.Stores

/-!
# What an engine has served

An engine between a stream of flits that it takes and a stream that it sends
does what a register unit does at once.  `Engine.Serves` is the invariant: it
says which packets of the stream are done with, that everything the engine
sent or still holds is the answers to them, and what the phase knows about
the request in hand.  `Serves.tick` carries it over one step.
-/

namespace ProbeNet

open Register

/-- The packet that the engine works at. -/
def EnginePhase.inHand : EnginePhase → Option Packet
  | .idle | .respond => none
  | .decode request | .dispatch request _ | .await request _ _ | .conclude request _ _ =>
    some request

namespace Engine

/-- The engine has the registers of a unit.  How far its backend is with an
access does not count. -/
structure Matches (e : Engine ModuleBackend) (u : RegisterUnit) : Prop where
  config : e.config = u.config
  registers : e.registers = u.registers
  backend : e.backend.settled = u.backend.settled

/-- The request asks for the transaction. -/
def AsksFor (request : Packet) (t : Transaction) : Prop :=
  ∃ kind, request.kind = .register kind ∧ Transaction.parse kind request.payload = .ok t

/-- What the phase of an engine knows, when `u` is the unit that has served
every packet before the one in hand. -/
def Knows (u : RegisterUnit) (e : Engine ModuleBackend) : EnginePhase → Prop
  | .idle | .respond | .decode _ => e.Matches u
  | .dispatch request t => e.Matches u ∧ AsksFor request t
  | .await request t responder =>
    e.Matches u ∧ AsksFor request t ∧ u.admits t.address t.width = true ∧
      (responder = .base ↔ t.address < u.config.boundary)
  | .conclude request t outcome =>
    e.Matches (u.serve request).1 ∧
      (u.serve request).2 = some (RegisterUnit.respond t request outcome.toOption)

/-- The engine has taken the flits `read` and sent the flits `sent`, as the
unit `u` demands it.  `done` are the packets whose answers have been made. -/
structure Serving (u : RegisterUnit) (e : Engine ModuleBackend) (read sent : List Flit)
    (done : List Packet) : Prop where
  reader : e.reader.flits = Flit.openRun read
  framed : e.phase ≠ .idle → Flit.openRun read = []
  packets : Packet.ofStream read = done ++ e.phase.inHand.toList
  answered : sent ++ e.writer.flits = Packet.stream (u.answers done)
  writing : e.writer.flits ≠ [] ↔ e.phase = .respond
  known : e.Knows (u.after done) e.phase

/-- The engine has taken the flits `read` and sent the flits `sent`, as the
unit `u` demands it. -/
def Serves (u : RegisterUnit) (e : Engine ModuleBackend) (read sent : List Flit) : Prop :=
  ∃ done, Serving u e read sent done

theorem serves_initial (config : EngineConfig) (backend : ModuleBackend) :
    Serves (.initial config backend) (.initial config backend) [] [] :=
  ⟨[], rfl, fun _ => rfl, rfl, rfl, by simp [initial], ⟨rfl, rfl, rfl⟩⟩

/-! ## What a step does to an engine -/

section Steps

variable {β : Type}

theorem isIdle_iff {e : Engine β} :
    e.isIdle = true ↔ e.phase = .idle ∧ e.reader.flits = [] := by
  unfold isIdle
  cases e.phase <;> simp [PacketReader.inPacket]

/-- The engine reads on, and what its reader has to say decides what it does next. -/
theorem stepIdle_eq {e : Engine β} (hphase : e.phase = .idle) (input : Option Flit) :
    ∃ stats, e.stepIdle input =
      { e with
        reader := (e.reader.tick input).1
        phase := (e.reader.tick input).2.packet?.elim .idle .decode
        stats } := by
  simp only [stepIdle]
  cases (e.reader.tick input).2 <;>
    exact ⟨_, by simp only [hphase, ReadOutcome.packet?, Option.elim]; rfl⟩

theorem stepIdle_none (e : Engine β) :
    ∃ reader, reader.flits = e.reader.flits ∧ e.stepIdle none = { e with reader } := by
  by_cases htime : e.reader.timeout ≤ e.reader.idleSteps + 1
  · exact ⟨{ e.reader with idleSteps := 0 }, rfl, by simp [stepIdle, PacketReader.tick, htime]⟩
  · exact ⟨{ e.reader with idleSteps := e.reader.idleSteps + 1 }, rfl,
      by simp [stepIdle, PacketReader.tick, htime]⟩

/-- A packet is no register request, or it is one for a transaction, or it is
malformed. -/
theorem stepDecode_cases (e : Engine β) (request : Packet) :
    ∃ stats,
      (request.isRequest = false ∧ e.stepDecode request = { e with stats, phase := .idle }) ∨
      (∃ t, AsksFor request t ∧
        e.stepDecode request = { e with stats, phase := .dispatch request t }) ∨
      ∃ kind error, request.kind = .register kind ∧ kind.isRequest = true ∧
        Transaction.parse kind request.payload = .error error ∧
        e.stepDecode request =
          { e with
            stats, phase := .conclude request (placeholder kind request.payload)
              (.error .malformed) } := by
  have hdrop : request.isRequest = false →
      e.stepDecode request =
        { e with phase := .idle, stats.discarded := e.stats.discarded + 1 } := by
    intro h
    unfold stepDecode
    split
    · rename_i kind hkind
      have hkind' : kind.isRequest = false := by simpa [Packet.isRequest, hkind] using h
      simp [hkind']
    · rfl
  cases hrequest : request.isRequest with
  | false => exact ⟨_, Or.inl ⟨rfl, hdrop hrequest⟩⟩
  | true =>
    obtain ⟨kind, hkind, hrequest⟩ : ∃ kind, request.kind = .register kind ∧
        kind.isRequest = true := by
      unfold Packet.isRequest at hrequest
      split at hrequest
      · rename_i kind hkind
        exact ⟨kind, hkind, hrequest⟩
      · cases hrequest
    refine ⟨{ e.stats with requests := e.stats.requests + 1 }, Or.inr ?_⟩
    cases hparse : Transaction.parse kind request.payload with
    | ok t =>
      exact Or.inl ⟨t, ⟨kind, hkind, hparse⟩, by simp [stepDecode, hkind, hrequest, hparse]⟩
    | error error =>
      exact Or.inr ⟨kind, error, hkind, hrequest, hparse,
        by simp [stepDecode, hkind, hrequest, hparse]⟩

/-- A transaction that is not admitted is refused at once; the others go to
whom the address belongs to. -/
theorem stepDispatch_cases [Backend β] (e : Engine β) (request : Packet) (t : Transaction)
    {u : RegisterUnit} (hconfig : e.config = u.config) :
    (u.admits t.address t.width = false ∧ ∃ refusal,
      e.stepDispatch request t = { e with phase := .conclude request t (.error refusal) }) ∨
    (u.admits t.address t.width = true ∧ t.address < u.config.boundary ∧
      e.stepDispatch request t = { e with phase := .await request t .base }) ∨
    (u.admits t.address t.width = true ∧ ¬ t.address < u.config.boundary ∧
      e.stepDispatch request t =
        { e with phase := .await request t .backend, backend := Backend.start e.backend t }) := by
  unfold stepDispatch RegisterUnit.admits
  rw [hconfig]
  by_cases hwide : u.config.maxWidth.words < t.width.words
  · exact Or.inl ⟨by simp [Nat.not_le.mpr hwide], .tooWide t.width, by rw [if_pos hwide]⟩
  · rw [decide_eq_true (Nat.not_lt.mp hwide), if_neg hwide, Bool.true_and]
    by_cases hbase : t.address < u.config.boundary
    · rw [if_pos hbase]
      by_cases hword : t.width = .w16
      · exact Or.inr (Or.inl ⟨by simp [hword], hbase, by rw [if_pos hword]⟩)
      · exact Or.inl ⟨by simp [hword, hbase], .baseTooWide t.width, by rw [if_neg hword]⟩
    · exact Or.inr (Or.inr ⟨by simp [BitVec.not_lt.mp hbase], hbase, by rw [if_neg hbase]⟩)

/-- Concluding a transaction queues its answer. -/
theorem stepConclude_eq (e : Engine β) (request : Packet) (t : Transaction)
    (outcome : Except Refusal Value) :
    ∃ stats, e.stepConclude request t outcome =
      { e with
        phase := .respond
        writer := e.writer.enqueue (RegisterUnit.respond t request outcome.toOption)
        stats } := by
  cases outcome with
  | ok v => exact ⟨e.stats, rfl⟩
  | error refusal => exact ⟨_, rfl⟩

end Steps

/-! ## The invariant along a step -/

variable {u : RegisterUnit} {e : Engine ModuleBackend} {read sent : List Flit}
  {done : List Packet}

/-- What was sent is the beginning of the answers to what was read. -/
theorem Serves.sent_prefix (h : Serves u e read sent) :
    sent <+: Packet.stream (u.answers (Packet.ofStream read)) := by
  obtain ⟨done, h⟩ := h
  rw [h.packets, RegisterUnit.answers_append, Packet.stream_append, ← h.answered,
    List.append_assoc]
  exact List.prefix_append _ _

/-- An idle engine has answered everything that it has read. -/
theorem Serves.sent_of_isIdle (h : Serves u e read sent) (hidle : e.isIdle = true) :
    sent = Packet.stream (u.answers (Packet.ofStream read)) := by
  obtain ⟨done, h⟩ := h
  have hphase : e.phase = .idle := (isIdle_iff.mp hidle).1
  have hwriter : e.writer.flits = [] := by
    by_contra hne
    exact absurd (h.writing.mp hne) (by simp [hphase])
  rw [h.packets, hphase, EnginePhase.inHand, Option.toList_none, List.append_nil, ← h.answered,
    hwriter, List.append_nil]

theorem Serving.writer_nil (h : Serving u e read sent done) (hphase : e.phase ≠ .respond) :
    e.writer.flits = [] := by
  by_contra hne
  exact hphase (h.writing.mp hne)

theorem Serving.stepIdle (h : Serving u e read sent done) (hphase : e.phase = .idle)
    (input : Option Flit) : Serves u (e.stepIdle input) (read ++ input.toList) sent := by
  have hwriter := h.writer_nil (by simp [hphase])
  obtain ⟨hreader, -, hpackets, hanswered, -, hknown⟩ := h
  rw [hphase] at hknown hpackets
  have hmatches : e.Matches (u.after done) := hknown
  have hdone : Packet.ofStream read = done := by simpa [EnginePhase.inHand] using hpackets
  have hflits := PacketReader.flits_tick hreader input
  have hread := PacketReader.packet?_tick hreader input
  rw [hdone] at hread
  obtain ⟨stats, hstep⟩ := stepIdle_eq hphase input
  rw [hstep]
  -- The packet goes on or is dropped, or it is the next one.
  cases hpacket : (e.reader.tick input).2.packet? with
  | none =>
    refine ⟨done, hflits, fun hbusy => absurd rfl hbusy, ?_, hanswered, by simp [hwriter], ?_⟩
    · simpa [EnginePhase.inHand, hpacket] using hread
    · exact ⟨hmatches.config, hmatches.registers, hmatches.backend⟩
  | some p =>
    refine ⟨done, hflits, fun _ => ?_, ?_, hanswered, by simp [hwriter], ?_⟩
    · rw [← hflits]
      exact PacketReader.flits_of_packet? hpacket
    · simpa [EnginePhase.inHand, hpacket] using hread
    · exact ⟨hmatches.config, hmatches.registers, hmatches.backend⟩

theorem Serving.stepDecode {request : Packet} (h : Serving u e read sent done)
    (hphase : e.phase = .decode request) : Serves u (e.stepDecode request) read sent := by
  have hwriter := h.writer_nil (by simp [hphase])
  obtain ⟨hreader, hframed, hpackets, hanswered, -, hknown⟩ := h
  rw [hphase] at hknown hpackets
  have hmatches : e.Matches (u.after done) := hknown
  have hopen : Flit.openRun read = [] := hframed (by simp [hphase])
  -- Only the first of the three is done with: the unit has served it without an answer.
  obtain ⟨stats, ⟨hother, hstep⟩ | ⟨t, hasks, hstep⟩ |
    ⟨kind, error, hkind, hrequest, hparse, hstep⟩⟩ := e.stepDecode_cases request
  · have hserve := RegisterUnit.serve_of_not_request (u := u.after done) hother
    rw [hstep]
    refine ⟨done ++ [request], hreader, fun _ => hopen, ?_, ?_, by simp [hwriter], ?_⟩
    · simpa [EnginePhase.inHand] using hpackets
    · simpa [RegisterUnit.answers_append, hserve] using hanswered
    · show Engine.Matches _ _
      rw [RegisterUnit.after_append, RegisterUnit.after_singleton, hserve]
      exact ⟨hmatches.config, hmatches.registers, hmatches.backend⟩
  · rw [hstep]
    refine ⟨done, hreader, fun _ => hopen, hpackets, hanswered, by simp [hwriter], ?_⟩
    exact ⟨⟨hmatches.config, hmatches.registers, hmatches.backend⟩, hasks⟩
  · have hserve := RegisterUnit.serve_of_parse_error (u := u.after done) hkind hrequest hparse
    rw [hstep]
    refine ⟨done, hreader, fun _ => hopen, hpackets, hanswered, by simp [hwriter], ?_⟩
    show Engine.Matches _ _ ∧ _
    rw [hserve]
    exact ⟨⟨hmatches.config, hmatches.registers, hmatches.backend⟩, rfl⟩

theorem Serving.stepDispatch {request : Packet} {t : Transaction}
    (h : Serving u e read sent done) (hphase : e.phase = .dispatch request t) :
    Serves u (e.stepDispatch request t) read sent := by
  have hwriter := h.writer_nil (by simp [hphase])
  obtain ⟨hreader, hframed, hpackets, hanswered, -, hknown⟩ := h
  rw [hphase] at hknown hpackets
  obtain ⟨hmatches, hasks⟩ : e.Matches (u.after done) ∧ AsksFor request t := hknown
  have hopen : Flit.openRun read = [] := hframed (by simp [hphase])
  obtain ⟨hrefused, refusal, hstep⟩ | ⟨hadmits, hbase, hstep⟩ | ⟨hadmits, hbase, hstep⟩ :=
    e.stepDispatch_cases request t hmatches.config
  · obtain ⟨kind, hkind, hparse⟩ := hasks
    have hperform : (u.after done).perform t = (u.after done, none) := by
      simp [RegisterUnit.perform, hrefused]
    have hserve := RegisterUnit.serve_of_parse (u := u.after done) hkind hparse
    rw [hperform] at hserve
    rw [hstep]
    refine ⟨done, hreader, fun _ => hopen, hpackets, hanswered, by simp [hwriter], ?_⟩
    show Engine.Matches _ _ ∧ _
    rw [hserve]
    exact ⟨⟨hmatches.config, hmatches.registers, hmatches.backend⟩, rfl⟩
  · rw [hstep]
    refine ⟨done, hreader, fun _ => hopen, hpackets, hanswered, by simp [hwriter], ?_⟩
    exact ⟨⟨hmatches.config, hmatches.registers, hmatches.backend⟩, hasks, hadmits,
      by simp [hbase]⟩
  · rw [hstep]
    refine ⟨done, hreader, fun _ => hopen, hpackets, hanswered, by simp [hwriter], ?_⟩
    have hsettled : (Backend.start e.backend t).settled = (u.after done).backend.settled := by
      rw [ModuleBackend.start_settled, hmatches.backend]
    exact ⟨⟨hmatches.config, hmatches.registers, hsettled⟩, hasks, hadmits, by simp [hbase]⟩

theorem toOption_mapError {ε ε' α : Type} (f : ε → ε') (x : Except ε α) :
    (x.mapError f).toOption = x.toOption := by
  cases x <;> rfl

theorem Serving.stepAwait {request : Packet} {t : Transaction} {responder : Responder}
    (h : Serving u e read sent done) (hphase : e.phase = .await request t responder) :
    Serves u (e.stepAwait request t responder) read sent := by
  have hwriter := h.writer_nil (by simp [hphase])
  obtain ⟨hreader, hframed, hpackets, hanswered, -, hknown⟩ := h
  rw [hphase] at hknown hpackets
  obtain ⟨hmatches, ⟨kind, hkind, hparse⟩, hadmits, hresponder⟩ :
    e.Matches (u.after done) ∧ AsksFor request t ∧
      (u.after done).admits t.address t.width = true ∧
      (responder = .base ↔ t.address < (u.after done).config.boundary) := hknown
  have hopen : Flit.openRun read = [] := hframed (by simp [hphase])
  have hserve := RegisterUnit.serve_of_parse (u := u.after done) hkind hparse
  cases responder with
  | base =>
    have hbase : t.address < (u.after done).config.boundary := hresponder.mp rfl
    refine ⟨done, hreader, fun _ => hopen, hpackets, hanswered, by simp [Engine.stepAwait, hwriter],
      ?_⟩
    show Engine.Matches _ _ ∧ _
    rw [hserve, toOption_mapError]
    simp only [RegisterUnit.perform, hadmits, hbase, not_true_eq_false, if_true, if_false]
    rw [← hmatches.registers]
    exact ⟨⟨hmatches.config, rfl, hmatches.backend⟩, rfl⟩
  | backend =>
    have hbase : ¬ t.address < (u.after done).config.boundary := fun hlt =>
      absurd (hresponder.mpr hlt) (by simp)
    obtain ⟨-, hpoll⟩ | ⟨b, hpoll, hsettled, -⟩ := e.backend.poll_cases t
    · obtain ⟨hbackend, hresult⟩ := ModuleBackend.complete_congr hmatches.backend t
      simp only [Engine.stepAwait, hpoll]
      refine ⟨done, hreader, fun _ => hopen, hpackets, hanswered, by simp [hwriter], ?_⟩
      show Engine.Matches _ _ ∧ _
      rw [hserve, toOption_mapError, hresult]
      simp only [RegisterUnit.perform, hadmits, hbase, not_true_eq_false, if_false]
      exact ⟨⟨hmatches.config, hmatches.registers, hbackend⟩, trivial⟩
    · simp only [Engine.stepAwait, hpoll]
      refine ⟨done, hreader, fun _ => hopen, ?_, hanswered, by simp [hwriter, hphase], ?_⟩
      · simpa [hphase, EnginePhase.inHand] using hpackets
      · rw [hphase]
        exact ⟨⟨hmatches.config, hmatches.registers, hsettled.trans hmatches.backend⟩,
          ⟨kind, hkind, hparse⟩, hadmits, hresponder⟩

theorem Serving.stepConclude {request : Packet} {t : Transaction}
    {outcome : Except Refusal Value} (h : Serving u e read sent done)
    (hphase : e.phase = .conclude request t outcome) :
    Serving u (e.stepConclude request t outcome) read sent (done ++ [request]) ∧
      (e.stepConclude request t outcome).phase = .respond := by
  have hwriter := h.writer_nil (by simp [hphase])
  obtain ⟨hreader, hframed, hpackets, hanswered, -, hknown⟩ := h
  rw [hphase] at hknown hpackets
  obtain ⟨hmatches, hanswer⟩ : e.Matches ((u.after done).serve request).1 ∧
    ((u.after done).serve request).2 =
      some (RegisterUnit.respond t request outcome.toOption) := hknown
  have hopen : Flit.openRun read = [] := hframed (by simp [hphase])
  obtain ⟨stats, hstep⟩ := e.stepConclude_eq request t outcome
  have hne : (RegisterUnit.respond t request outcome.toOption).toFlits ≠ [] :=
    (Packet.isRun_toFlits _).ne_nil
  have hsent : sent = Packet.stream (u.answers done) := by simpa [hwriter] using hanswered
  rw [hstep]
  refine ⟨⟨hreader, fun _ => hopen, ?_, ?_, ?_, ?_⟩, rfl⟩
  · simpa [EnginePhase.inHand] using hpackets
  · simp [PacketWriter.enqueue, hwriter, RegisterUnit.answers_append, hanswer, hsent]
  · simpa [PacketWriter.enqueue, hwriter] using hne
  · show Engine.Matches _ _
    rw [RegisterUnit.after_append, RegisterUnit.after_singleton]
    exact ⟨hmatches.config, hmatches.registers, hmatches.backend⟩

/-- What the sink takes of the answer is sent, the rest is still held. -/
theorem Serving.stepRespond (h : Serving u e read sent done) (hphase : e.phase = .respond)
    (ready : Bool) :
    Serving u (e.stepRespond ready).1 read
      (sent ++ if ready then (e.stepRespond ready).2.toList else []) done := by
  obtain ⟨hreader, hframed, hpackets, hanswered, -, hknown⟩ := h
  have hopen : Flit.openRun read = [] := hframed (by simp [hphase])
  rw [hphase] at hpackets hknown
  have hmatches : e.Matches (u.after done) := hknown
  have hmoved : (if ready then (e.stepRespond ready).2.toList else []) ++
      (e.writer.popIf ready).flits = e.writer.flits := e.writer.flits_popIf ready
  refine ⟨hreader, fun _ => hopen, ?_, ?_, ?_, ?_⟩
  · simp only [Engine.stepRespond]
    split <;> simpa [EnginePhase.inHand] using hpackets
  · calc (sent ++ if ready then (e.stepRespond ready).2.toList else []) ++
          (e.writer.popIf ready).flits
        = sent ++ e.writer.flits := by rw [List.append_assoc, hmoved]
      _ = Packet.stream (u.answers done) := hanswered
  · simp only [Engine.stepRespond, PacketWriter.isIdle]
    by_cases hw : (e.writer.popIf ready).flits = [] <;> simp [hw]
  · simp only [Engine.stepRespond]
    split <;> exact ⟨hmatches.config, hmatches.registers, hmatches.backend⟩

/-- One step between any source and any sink keeps the invariant. -/
theorem Serves.tick (h : Serves u e read sent) (input : Option Flit) (ready : Bool) :
    Serves u (e.tick input ready).engine
      (read ++ if (e.tick input ready).taken then input.toList else [])
      (sent ++ if ready then (e.tick input ready).offered.toList else []) := by
  obtain ⟨done, h⟩ := h
  cases hphase : e.phase with
  | idle =>
    have hstep := h.stepIdle hphase input
    cases input <;> simpa [Engine.tick, hphase] using hstep
  | decode request => simpa [Engine.tick, hphase] using h.stepDecode hphase
  | dispatch request t => simpa [Engine.tick, hphase] using h.stepDispatch hphase
  | await request t responder => simpa [Engine.tick, hphase] using h.stepAwait hphase
  | conclude request t outcome =>
    obtain ⟨hqueued, hrespond⟩ := h.stepConclude hphase
    simpa [Engine.tick, hphase] using ⟨_, hqueued.stepRespond hrespond ready⟩
  | respond => simpa [Engine.tick, hphase] using ⟨_, h.stepRespond hphase ready⟩

end Engine

end ProbeNet
