import ProbeNet.Proofs.Engine.Serving

/-!
# What an engine has left to do

An engine that has read a request answers it in a bounded number of steps, as
long as its sink takes the answer.  `Engine.work` bounds the number: it counts
the phases that are ahead, the polls that the backend lets it wait for, and the
flits of the answer, each with what it takes to leave the module and the subnet.

`Serves.tick_work` says that a step makes this smaller unless the engine reads,
or waits for its source or its sink.
-/

namespace ProbeNet

open Register

/-- The work that a phase is ahead of, answers of eleven flits included. -/
def EnginePhase.work (backend : ModuleBackend) : EnginePhase → Nat
  | .idle | .respond => 0
  | .decode _ => 48 + backend.latency
  | .dispatch _ _ => 47 + backend.latency
  | .await _ _ .base => 46
  | .await _ _ .backend => 46 + backend.waiting
  | .conclude _ _ _ => 45

namespace Engine

/-- The work that is left for the request in hand. -/
def work (e : Engine ModuleBackend) : Nat := e.phase.work e.backend + 4 * e.writer.flits.length

variable {e : Engine ModuleBackend} {request : Packet} {t : Transaction}

theorem length_respond (t : Transaction) (request : Packet) (v : Option Value) :
    (RegisterUnit.respond t request v).toFlits.length ≤ 11 := by
  have hwords : t.width.words ≤ 8 := by
    cases t.width <;> decide
  have hpayload : (RegisterUnit.respond t request v).payload.length ≤ 8 := by
    cases v with
    | none =>
      show (t.errorResponse request).payload.length ≤ 8
      unfold Transaction.errorResponse
      cases t.access <;> exact Nat.zero_le _
    | some v =>
      show (t.successResponse request v).payload.length ≤ 8
      unfold Transaction.successResponse
      cases t.access
      · show (v.toWords t.width).length ≤ 8
        rw [Value.length_toWords]
        exact hwords
      · exact Nat.zero_le _
  rw [Packet.length_toFlits]
  show headerWords + _ ≤ 11
  unfold headerWords
  omega

theorem work_stepDecode (hphase : e.phase = .decode request) :
    (e.stepDecode request).work < e.work := by
  have hwork : e.work = 48 + e.backend.latency + 4 * e.writer.flits.length := by
    rw [work, hphase]
    rfl
  rw [hwork]
  obtain ⟨stats, ⟨-, hstep⟩ | ⟨t, -, hstep⟩ | ⟨kind, error, -, -, -, hstep⟩⟩ :=
    e.stepDecode_cases request
  · rw [hstep]
    show 0 + 4 * e.writer.flits.length < _
    omega
  · rw [hstep]
    show 47 + e.backend.latency + 4 * e.writer.flits.length < _
    omega
  · rw [hstep]
    show 45 + 4 * e.writer.flits.length < _
    omega

theorem work_stepDispatch (hphase : e.phase = .dispatch request t) :
    (e.stepDispatch request t).work < e.work := by
  have hwork : e.work = 47 + e.backend.latency + 4 * e.writer.flits.length := by
    rw [work, hphase]
    rfl
  rw [hwork]
  unfold stepDispatch
  split
  · show 45 + 4 * e.writer.flits.length < _
    omega
  · split
    · split
      · show 46 + 4 * e.writer.flits.length < _
        omega
      · show 45 + 4 * e.writer.flits.length < _
        omega
    · show 46 + (Backend.start e.backend t).waiting + 4 * e.writer.flits.length < _
      rw [e.backend.start_waiting t]
      omega

theorem work_stepAwait {responder : Responder} (hphase : e.phase = .await request t responder) :
    (e.stepAwait request t responder).work < e.work := by
  cases responder with
  | base =>
    have hwork : e.work = 46 + 4 * e.writer.flits.length := by
      rw [work, hphase]
      rfl
    rw [hwork]
    show 45 + 4 * e.writer.flits.length < _
    omega
  | backend =>
    have hwork : e.work = 46 + e.backend.waiting + 4 * e.writer.flits.length := by
      rw [work, hphase]
      rfl
    rw [hwork]
    obtain ⟨-, hpoll⟩ | ⟨b, hpoll, -, hwaiting⟩ := e.backend.poll_cases t
    · simp only [stepAwait, hpoll]
      show 45 + 4 * e.writer.flits.length < _
      omega
    · simp only [stepAwait, hpoll]
      rw [work, hphase]
      show 46 + b.waiting + 4 * e.writer.flits.length < _
      omega

theorem work_stepConclude {outcome : Except Refusal Value}
    (hphase : e.phase = .conclude request t outcome) :
    (e.stepConclude request t outcome).work < e.work := by
  have hwork : e.work = 45 + 4 * e.writer.flits.length := by
    rw [work, hphase]
    rfl
  obtain ⟨stats, hstep⟩ := e.stepConclude_eq request t outcome
  have hanswer := length_respond t request outcome.toOption
  rw [hwork, hstep]
  show 0 + 4 * (e.writer.flits ++ _).length < _
  rw [List.length_append]
  omega

/-- The flits that move from the engine onto the link behind it: each counts
three there. -/
def moved (offered : Option Flit) (ready : Bool) : List Flit := if ready then offered.toList else []

/-- Sending a flit of the answer makes the work smaller. -/
theorem work_stepRespond (hphase : e.phase = .respond) (ready : Bool) :
    (e.stepRespond ready).1.work + 4 * (moved (e.stepRespond ready).2 ready).length = e.work := by
  have hwork : e.work = 4 * e.writer.flits.length := by
    rw [work, hphase]
    exact Nat.zero_add _
  have hafter : (e.stepRespond ready).1.work = 4 * (e.writer.popIf ready).flits.length := by
    show EnginePhase.work _ (if (e.writer.popIf ready).isIdle then .idle else .respond) + _ = _
    split <;> exact Nat.zero_add _
  rw [hwork, hafter]
  cases ready with
  | false => rfl
  | true =>
    show 4 * e.writer.flits.tail.length + 4 * e.writer.flits.head?.toList.length = _
    cases e.writer.flits with
    | nil => rfl
    | cons f rest => exact (Nat.mul_succ 4 rest.length).symm

/-- An engine reads, or it comes nearer to the end of its work, or it waits for
its source or its sink. -/
theorem Serves.tick_work {u : RegisterUnit} {read sent : List Flit} (h : e.Serves u read sent)
    (input : Option Flit) (ready : Bool) :
    (input.isSome = true ∧ (e.tick input ready).taken = true) ∨
    ((e.tick input ready).taken = false ∧
      (e.tick input ready).engine.work + 3 * (moved (e.tick input ready).offered ready).length <
        e.work) ∨
    ((e.tick input ready).taken = false ∧ moved (e.tick input ready).offered ready = [] ∧
      (e.tick input ready).engine.work = e.work ∧
      (e.phase = .idle ∧ input = none ∨ e.phase = .respond ∧ ready = false)) := by
  cases hphase : e.phase with
  | idle =>
    simp only [Engine.tick, hphase]
    cases input with
    | some f => exact Or.inl ⟨rfl, rfl⟩
    | none =>
      obtain ⟨reader, -, hstep⟩ := e.stepIdle_none
      rw [hstep]
      refine Or.inr (Or.inr ⟨rfl, ?_, rfl, Or.inl ⟨trivial, rfl⟩⟩)
      cases ready <;> rfl
  | decode request =>
    have hless := work_stepDecode hphase
    simp only [Engine.tick, hphase]
    exact Or.inr (Or.inl ⟨trivial, by cases ready <;> exact hless⟩)
  | dispatch request t =>
    have hless := work_stepDispatch hphase
    simp only [Engine.tick, hphase]
    exact Or.inr (Or.inl ⟨trivial, by cases ready <;> exact hless⟩)
  | await request t responder =>
    have hless := work_stepAwait hphase
    simp only [Engine.tick, hphase]
    exact Or.inr (Or.inl ⟨trivial, by cases ready <;> exact hless⟩)
  | conclude request t outcome =>
    have hless := work_stepConclude hphase
    have hqueued : (e.stepConclude request t outcome).phase = .respond := by
      cases outcome <;> rfl
    have hsends := work_stepRespond hqueued ready
    simp only [Engine.tick, hphase]
    refine Or.inr (Or.inl ⟨trivial, ?_⟩)
    omega
  | respond =>
    have hsends := work_stepRespond hphase ready
    simp only [Engine.tick, hphase]
    cases ready with
    | false => exact Or.inr (Or.inr ⟨trivial, rfl, hsends, Or.inr ⟨trivial, rfl⟩⟩)
    | true =>
      obtain ⟨done, h⟩ := h
      have hne : e.writer.flits ≠ [] := h.writing.mpr hphase
      obtain ⟨f, rest, hwriter⟩ := List.exists_cons_of_ne_nil hne
      have hmoved : (moved (e.stepRespond true).2 true).length = 1 := by
        show e.writer.flits.head?.toList.length = 1
        rw [hwriter]
        rfl
      refine Or.inr (Or.inl ⟨trivial, ?_⟩)
      omega

end Engine

end ProbeNet
