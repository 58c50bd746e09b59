import Mathlib.Data.List.ReduceOption
import ProbeNet.Proofs.Engine.Effects
import ProbeNet.Proofs.Register.Requests

/-!
# How long an engine takes

An engine answers a request after a number of steps that the request, the configuration and the
latency of the backend determine, whatever the engine has served before.  Only the sink can make it
take longer, by as many steps as it refuses a flit.

* `Engine.delay` counts the steps until the engine offers the next flit.  `Engine.countdown` says
  that a step without a flit makes this one less, whatever the source and the sink do.
* `EngineRun.Emits` says that some flits leave after a delay, one in every step that is not refused,
  and that nothing is read meanwhile.  `EngineRun.Owes.emits` is this for what an engine still owes
  to its requests.
* `EngineRun.owes_request` is the arrival of a request at an idle engine, and
  `service_takes_exactly` puts both together.
-/

namespace ProbeNet

open Register

/-! ## The delay of an engine -/

/-- How many steps the dispatch of a transaction is ahead of the first flit of its answer. -/
def EngineConfig.dispatchDelay (config : EngineConfig) (latency : Nat) (t : Transaction) : Nat :=
  if config.maxWidth.words < t.width.words ∨ t.address < config.boundary ∧ t.width ≠ .w16 then 1
  else if t.address < config.boundary then 2
  else latency + 2

/-- How many steps the decoding of a request is ahead of the first flit of its answer. -/
def EngineConfig.decodeDelay (config : EngineConfig) (latency : Nat) (kind : RegisterKind)
    (payload : List Word) : Nat :=
  match Transaction.parse kind payload with
  | .ok t => config.dispatchDelay latency t + 1
  | .error _ => 1

/-- A request is taken apart if its payload has the right length, and otherwise it is answered
without that. -/
theorem EngineConfig.decodeDelay_cases (config : EngineConfig) (latency : Nat) {kind : RegisterKind}
    (hrequest : kind.isRequest = true) (payload : List Word) :
    (kind.requestLength? ≠ some payload.length ∧ config.decodeDelay latency kind payload = 1) ∨
      (kind.requestLength? = some payload.length ∧ ∃ t, Transaction.parse kind payload = .ok t ∧
        config.decodeDelay latency kind payload = config.dispatchDelay latency t + 1) := by
  rcases Transaction.parse_outcomes kind payload with
    ⟨rfl, hparse⟩ | ⟨-, ⟨expected, hexpected, ⟨rfl, t, hparse⟩ | ⟨hother, hparse⟩⟩ | ⟨hnone, -⟩⟩
  · refine Or.inl ⟨?_, by simp [decodeDelay, hparse]⟩
    cases kind <;> simp [RegisterKind.requestLength?]
  · exact Or.inr ⟨hexpected, t, hparse, by simp [decodeDelay, hparse]⟩
  · refine Or.inl ⟨?_, by simp [decodeDelay, hparse]⟩
    rw [hexpected]
    exact fun h => hother (Option.some.inj h).symm
  · rw [RegisterKind.requestLength?_eq_none_iff, hrequest] at hnone
    cases hnone

namespace Engine

/-- How many steps pass before the one in which the next flit is offered. -/
def delay (e : Engine ModuleBackend) : Nat :=
  match e.phase with
  | .idle | .respond | .conclude _ _ _ => 0
  | .await _ _ .base => 1
  | .await _ _ .backend => e.backend.waiting + 1
  | .dispatch _ t => e.config.dispatchDelay e.backend.latency t
  | .decode request =>
    match request.kind with
    | .register kind => e.config.decodeDelay e.backend.latency kind request.payload
    | _ => 0

variable {e : Engine ModuleBackend} {request : Packet} {t : Transaction}

/-- The engine works at a request, and at no other packet. -/
def Busy (e : Engine ModuleBackend) : Prop :=
  e.phase ≠ .idle ∧ ∀ request, e.phase = .decode request → request.isRequest = true

theorem Busy.not_isIdle (h : e.Busy) : e.isIdle = false :=
  Bool.eq_false_iff.mpr fun hidle => h.1 (isIdle_iff.mp hidle).1

theorem delay_stepDecode (hphase : e.phase = .decode request) (hrequest : request.isRequest = true) :
    (e.stepDecode request).delay + 1 = e.delay ∧ (e.stepDecode request).Busy := by
  obtain ⟨stats, ⟨hother, -⟩ | ⟨t, ⟨kind, hkind, hparse⟩, hstep⟩ |
    ⟨kind, error, hkind, -, hparse, hstep⟩⟩ := e.stepDecode_cases request
  · rw [hrequest] at hother
    cases hother
  · rw [hstep]
    refine ⟨?_, by simp [Busy]⟩
    simp only [delay, hphase, hkind, EngineConfig.decodeDelay, hparse]
  · rw [hstep]
    refine ⟨?_, by simp [Busy]⟩
    simp only [delay, hphase, hkind, EngineConfig.decodeDelay, hparse]

theorem delay_stepDispatch (hphase : e.phase = .dispatch request t) :
    (e.stepDispatch request t).delay + 1 = e.delay ∧ (e.stepDispatch request t).Busy := by
  have hdelay : e.delay = e.config.dispatchDelay e.backend.latency t := by
    rw [delay, hphase]
  rw [hdelay, EngineConfig.dispatchDelay, stepDispatch]
  by_cases hwide : e.config.maxWidth.words < t.width.words
  · rw [if_pos hwide, if_pos (Or.inl hwide)]
    exact ⟨rfl, by simp [Busy]⟩
  · rw [if_neg hwide]
    by_cases hbase : t.address < e.config.boundary
    · rw [if_pos hbase]
      by_cases hword : t.width = .w16
      · rw [if_pos hword, if_neg (not_or.mpr ⟨hwide, fun h => h.2 hword⟩), if_pos hbase]
        exact ⟨rfl, by simp [Busy]⟩
      · rw [if_neg hword, if_pos (Or.inr ⟨hbase, hword⟩)]
        exact ⟨rfl, by simp [Busy]⟩
    · rw [if_neg hbase, if_neg (not_or.mpr ⟨hwide, fun h => hbase h.1⟩), if_neg hbase]
      refine ⟨?_, by simp [Busy]⟩
      show (Backend.start e.backend t).waiting + 1 + 1 = _
      rw [e.backend.start_waiting t]

theorem delay_stepAwait {responder : Responder} (hphase : e.phase = .await request t responder) :
    (e.stepAwait request t responder).delay + 1 = e.delay ∧
      (e.stepAwait request t responder).Busy := by
  cases responder with
  | base =>
    refine ⟨?_, by simp [Busy, stepAwait]⟩
    simp only [delay, hphase, stepAwait]
  | backend =>
    have hdelay : e.delay = e.backend.waiting + 1 := by
      rw [delay, hphase]
    obtain ⟨hwaiting, hpoll⟩ | ⟨b, hpoll, -, hwaiting⟩ := e.backend.poll_cases t
    · simp only [stepAwait, hpoll]
      exact ⟨by rw [hdelay, hwaiting, delay], by simp [Busy]⟩
    · simp only [stepAwait, hpoll]
      refine ⟨?_, by simp [Busy, hphase]⟩
      simp only [delay, hphase]
      rw [hwaiting]

/-- As long as a delay is left the engine reads and offers nothing, and a step makes the delay one
less.  Neither the source nor the sink has any influence on this. -/
theorem countdown {delay : Nat} (hbusy : e.Busy) (hdelay : e.delay = delay + 1) :
    ∃ e' : Engine ModuleBackend, e'.Busy ∧ e'.delay = delay ∧
      ∀ input ready, e.tick input ready = { engine := e', taken := false, offered := none } := by
  cases hphase : e.phase with
  | idle => exact absurd hphase hbusy.1
  | decode request =>
    obtain ⟨hless, hnext⟩ := delay_stepDecode hphase (hbusy.2 request hphase)
    exact ⟨_, hnext, by omega, fun input ready => by simp only [tick, hphase]⟩
  | dispatch request t =>
    obtain ⟨hless, hnext⟩ := delay_stepDispatch hphase
    exact ⟨_, hnext, by omega, fun input ready => by simp only [tick, hphase]⟩
  | await request t responder =>
    obtain ⟨hless, hnext⟩ := delay_stepAwait hphase
    exact ⟨_, hnext, by omega, fun input ready => by simp only [tick, hphase]⟩
  | conclude | respond =>
    rw [Engine.delay, hphase] at hdelay
    cases hdelay

/-- Without a delay the engine responds, or it is about to. -/
theorem phase_of_delay_zero (hbusy : e.Busy) (hdelay : e.delay = 0) :
    e.phase = .respond ∨ ∃ request t outcome, e.phase = .conclude request t outcome := by
  cases hphase : e.phase with
  | idle => exact absurd hphase hbusy.1
  | decode request =>
    have hless := (delay_stepDecode hphase (hbusy.2 request hphase)).1
    omega
  | dispatch request t =>
    have hless := (delay_stepDispatch hphase).1
    omega
  | await request t responder =>
    have hless := (delay_stepAwait hphase).1
    omega
  | conclude request t outcome => exact Or.inr ⟨request, t, outcome, rfl⟩
  | respond => exact Or.inl rfl

/-- Whatever an engine has served, it is configured as it was, and its backend is as slow. -/
theorem Serves.setup_eq {u : RegisterUnit} {read sent : List Flit} (h : e.Serves u read sent) :
    e.config = u.config ∧ e.backend.latency = u.backend.latency := by
  obtain ⟨ps, hunit⟩ := h.exists_unit
  have hfixed : e.unit.fixed = u.fixed := by
    rw [hunit, RegisterUnit.fixed_settled, RegisterUnit.fixed_after]
  have hbackend : e.backend.fixed = u.backend.fixed := by
    rw [← ModuleBackend.fixed_settled]
    exact congrArg RegisterUnit.backend hfixed
  refine ⟨congrArg RegisterUnit.config hfixed, ?_⟩
  rw [← ModuleBackend.latency_fixed, hbackend, ModuleBackend.latency_fixed]

end Engine

/-! ## What leaves an engine, and when -/

namespace EngineRun

/-- In how many of the steps the sink refuses a flit. -/
def refusals (r : EngineRun) : List (Option Flit × Bool) → Nat
  | [] => 0
  | step :: steps =>
    (if (r.engine.tick step.1 step.2).offered.isSome && !step.2 then 1 else 0) +
      (r.tick step.1 step.2).refusals steps

theorem refusals_le_length (r : EngineRun) (steps : List (Option Flit × Bool)) :
    r.refusals steps ≤ steps.length := by
  induction steps generalizing r with
  | nil => exact Nat.le_refl 0
  | cons step steps ih =>
    have hrest := ih (r.tick step.1 step.2)
    rw [refusals, List.length_cons]
    split <;> omega

/-- A sink that is always ready refuses nothing. -/
theorem refusals_of_ready (r : EngineRun) {steps : List (Option Flit × Bool)}
    (h : ∀ step ∈ steps, step.2 = true) : r.refusals steps = 0 := by
  induction steps generalizing r with
  | nil => rfl
  | cons step steps ih =>
    obtain ⟨hready, hrest⟩ := List.forall_mem_cons.mp h
    rw [refusals, ih _ hrest, hready]
    simp

/-- After `delay` steps the engine offers `fs`.  A flit leaves in every step in which it is not
refused, the engine is idle when the last one has left, and before that it reads nothing.  This is
said of any steps that do not go on after the last flit has left. -/
def Emits (r : EngineRun) (delay : Nat) (fs : List Flit) : Prop :=
  ∀ steps, steps.length ≤ delay + fs.length + r.refusals steps →
    (r.more steps).taken = r.taken ∧
    (r.more steps).sent = r.sent ++ fs.take (steps.length - (delay + r.refusals steps)) ∧
    ((r.more steps).engine.isIdle = true ↔ steps.length = delay + fs.length + r.refusals steps)

variable {r : EngineRun} {fs : List Flit} {u : RegisterUnit} {request : Packet}

/-- The same, said with the step in which the first flit leaves. -/
theorem Emits.of_first {delay : Nat} (h : r.Emits delay fs) (steps : List (Option Flit × Bool))
    (hlength : steps.length < delay + 1 + fs.length + r.refusals steps) :
    (r.more steps).taken = r.taken ∧
      (r.more steps).sent =
        r.sent ++ fs.take (steps.length + 1 - (delay + 1 + r.refusals steps)) ∧
      ((r.more steps).engine.isIdle = true ↔
        steps.length + 1 = delay + 1 + fs.length + r.refusals steps) := by
  obtain ⟨htaken, hsent, hidle⟩ := h steps (by omega)
  refine ⟨htaken, ?_, hidle.trans (by omega)⟩
  rw [hsent]
  congr 2
  omega

/-- A step of an engine that neither reads nor offers anything delays what it emits by one step. -/
theorem Emits.wait {e' : Engine ModuleBackend} {delay : Nat} (hbusy : r.engine.isIdle = false)
    (hstep : ∀ input ready,
      r.engine.tick input ready = { engine := e', taken := false, offered := none })
    (h : Emits { r with engine := e' } delay fs) : r.Emits (delay + 1) fs := by
  have htick : ∀ input ready, r.tick input ready = { r with engine := e' } := by
    intro input ready
    simp [tick, hstep]
  rintro (_ | ⟨step, steps⟩) hlength
  · refine ⟨rfl, by simp [more], iff_of_false (by simp [more, hbusy]) ?_⟩
    rw [List.length_nil]
    omega
  · have hrefusals : r.refusals (step :: steps) = refusals { r with engine := e' } steps := by
      simp [refusals, hstep, htick]
    have hmore : r.more (step :: steps) = more { r with engine := e' } steps := by
      simp [more, htick]
    rw [hrefusals, List.length_cons] at hlength
    obtain ⟨htaken, hsent, hidle⟩ := h steps (by omega)
    rw [hrefusals, hmore, List.length_cons]
    refine ⟨htaken, ?_, ?_⟩
    · rw [hsent]
      congr 2
      omega
    · rw [hidle]
      omega

/-- A step in which a flit leaves, after any number of steps in which it is refused. -/
theorem Emits.send {f : Flit} (hbusy : r.engine.isIdle = false)
    (hoffered : ∀ input ready, (r.engine.tick input ready).offered = some f)
    (hrefused : ∀ input, r.tick input false = r)
    (htaken : ∀ input, (r.tick input true).taken = r.taken)
    (hsent : ∀ input, (r.tick input true).sent = r.sent ++ [f])
    (h : ∀ input, (r.tick input true).Emits 0 fs) : r.Emits 0 (f :: fs) := by
  intro steps
  -- A refused flit leaves the engine as it is, so the induction stays at one engine.
  induction steps with
  | nil =>
    intro _
    refine ⟨rfl, by simp [more], iff_of_false (by simp [more, hbusy]) ?_⟩
    rw [List.length_nil, List.length_cons]
    omega
  | cons step steps ih =>
    obtain ⟨input, ready⟩ := step
    intro hlength
    cases ready with
    | false =>
      have hmore : r.more ((input, false) :: steps) = r.more steps := by
        rw [more, List.foldl_cons, hrefused]
        rfl
      have hrefusals : r.refusals ((input, false) :: steps) = 1 + r.refusals steps := by
        rw [refusals, hoffered, hrefused]
        rfl
      rw [hrefusals, List.length_cons] at hlength
      obtain ⟨hread, hgone, hidle⟩ := ih (by omega)
      rw [hmore, hrefusals, hidle, hgone, List.length_cons]
      refine ⟨hread, ?_, by omega⟩
      congr 2
      omega
    | true =>
      have hrefusals : r.refusals ((input, true) :: steps) =
          (r.tick input true).refusals steps := by
        rw [refusals, Bool.not_true, Bool.and_false, if_neg Bool.false_ne_true, Nat.zero_add]
      have hle := (r.tick input true).refusals_le_length steps
      rw [hrefusals, List.length_cons, List.length_cons] at hlength
      obtain ⟨hread, hgone, hidle⟩ := h input steps (by omega)
      rw [hrefusals, show r.more ((input, true) :: steps) = (r.tick input true).more steps from rfl,
        hidle, hgone, hread, htaken, hsent, List.append_assoc, List.length_cons, List.length_cons,
        Nat.zero_add, Nat.succ_sub hle]
      exact ⟨rfl, rfl, by omega⟩

/-- An engine in which nothing is left emits nothing. -/
theorem emits_nil (hidle : r.engine.isIdle = true) : r.Emits 0 [] := by
  rintro (_ | ⟨step, steps⟩) hlength
  · exact ⟨rfl, by simp [more], by simp [more, hidle, refusals]⟩
  · -- An idle engine offers nothing that could be refused, so there are no more steps to look at.
    have hoffered : (r.engine.tick step.1 step.2).offered = none := by
      simp [Engine.tick, (Engine.isIdle_iff.mp hidle).1]
    have hrefusals : r.refusals (step :: steps) = (r.tick step.1 step.2).refusals steps := by
      simp [refusals, hoffered]
    have hle := (r.tick step.1 step.2).refusals_le_length steps
    rw [hrefusals, List.length_cons, List.length_nil] at hlength
    omega

/-- A responding engine sends the rest of its answer. -/
theorem emits_of_respond (hphase : r.engine.phase = .respond)
    (hwriter : r.engine.writer.flits = fs) (hne : fs ≠ []) (hreader : r.engine.reader.flits = []) :
    r.Emits 0 fs := by
  induction fs generalizing r with
  | nil => exact absurd rfl hne
  | cons f fs ih =>
    obtain ⟨⟨config, registers, backend, phase, ⟨held, idleSteps, timeout⟩, ⟨flits⟩, stats⟩, taken,
      sent⟩ := r
    obtain rfl : phase = .respond := hphase
    obtain rfl : flits = f :: fs := hwriter
    obtain rfl : held = [] := hreader
    refine .send rfl (fun _ _ => rfl) (fun input => ?_) (fun input => ?_) (fun _ => rfl)
      fun input => ?_
    · simp [tick, Engine.tick, Engine.stepRespond, PacketWriter.popIf, PacketWriter.isIdle]
    · simp [tick, Engine.tick]
    · cases fs with
      | nil => exact emits_nil rfl
      | cons g rest => exact ih rfl rfl (List.cons_ne_nil g rest) rfl

/-- What an engine emits depends on what it does from the next step on. -/
theorem Emits.congr (e' : Engine ModuleBackend) {delay : Nat}
    (hidle : r.engine.isIdle = e'.isIdle)
    (hstep : ∀ input ready, r.engine.tick input ready = e'.tick input ready)
    (h : Emits { r with engine := e' } delay fs) : r.Emits delay fs := by
  have htick : ∀ input ready, r.tick input ready = tick { r with engine := e' } input ready := by
    intro input ready
    simp [tick, hstep]
  have hrefusals : ∀ steps, r.refusals steps = refusals { r with engine := e' } steps := by
    rintro (_ | ⟨step, steps⟩)
    · rfl
    · simp only [refusals, hstep, htick]
  intro steps hlength
  rw [hrefusals] at hlength ⊢
  obtain ⟨htaken, hsent, hdone⟩ := h steps hlength
  rcases steps with _ | ⟨step, steps⟩
  · refine ⟨rfl, hsent, ?_⟩
    rw [← hdone]
    exact Eq.congr_left hidle
  · have hmore : r.more (step :: steps) = more { r with engine := e' } (step :: steps) := by
      simp only [more, List.foldl_cons, htick]
    rw [hmore]
    exact ⟨htaken, hsent, hdone⟩

/-! ## What an engine owes -/

/-- The engine has done what the unit demands so far, and of the answers to what it has read it has
still to send `fs`. -/
structure Owes (u : RegisterUnit) (r : EngineRun) (fs : List Flit) : Prop where
  serves : r.engine.Serves u r.taken r.sent
  owed : r.sent ++ fs = Packet.stream (u.answers (Packet.ofStream r.taken))

/-- A step of an engine that neither reads nor offers anything does not change what it owes. -/
theorem Owes.wait {e' : Engine ModuleBackend}
    (hstep : r.engine.tick none true = { engine := e', taken := false, offered := none })
    (h : Owes u r fs) : Owes u { r with engine := e' } fs := by
  have hserves := h.serves.tick none true
  rw [hstep] at hserves
  exact ⟨by simpa using hserves, h.owed⟩

/-- A responding engine has in its writer what it owes. -/
theorem Owes.emits_of_respond (h : Owes u r fs) (hphase : r.engine.phase = .respond) :
    r.Emits 0 fs := by
  obtain ⟨⟨done, hserving⟩, howed⟩ := h
  have hdone : Packet.ofStream r.taken = done := by
    simpa [hphase, EnginePhase.inHand] using hserving.packets
  have hwriter : r.engine.writer.flits = fs := by
    have hflits := hserving.answered
    rw [← hdone, ← howed] at hflits
    exact List.append_cancel_left hflits
  have hreader : r.engine.reader.flits = [] := by
    rw [hserving.reader]
    exact hserving.framed (by simp [hphase])
  exact EngineRun.emits_of_respond hphase hwriter (hwriter ▸ hserving.writing.mpr hphase) hreader

/-- An engine that knows the result offers its answer at once. -/
theorem Owes.emits_of_conclude {t : Transaction} {outcome : Except Refusal Value}
    (h : Owes u r fs) (hphase : r.engine.phase = .conclude request t outcome) : r.Emits 0 fs := by
  obtain ⟨⟨done, hserving⟩, howed⟩ := h
  obtain ⟨hqueued, hrespond⟩ := hserving.stepConclude hphase
  refine .congr (r.engine.stepConclude request t outcome) ?_ (fun input ready => ?_) ?_
  · simp [Engine.isIdle, hphase, hrespond]
  · simp only [Engine.tick, hphase, hrespond]
  · exact Owes.emits_of_respond ⟨⟨_, hqueued⟩, howed⟩ hrespond

/-- What an engine owes to the request in hand leaves after its delay. -/
theorem Owes.emits (h : Owes u r fs) (hbusy : r.engine.Busy) : r.Emits r.engine.delay fs := by
  induction hdelay : r.engine.delay generalizing r with
  | zero =>
    rcases Engine.phase_of_delay_zero hbusy hdelay with hphase | ⟨request, t, outcome, hphase⟩
    · exact h.emits_of_respond hphase
    · exact h.emits_of_conclude hphase
  | succ delay ih =>
    obtain ⟨e', hbusy', hdelay', hstep⟩ := Engine.countdown hbusy hdelay
    exact .wait hbusy.not_isIdle hstep (ih (h.wait (hstep none true)) hbusy' hdelay')

/-! ## The arrival of a request -/

/-- An idle engine takes what the source shows. -/
theorem tick_idle (hphase : r.engine.phase = .idle) (input : Option Flit) (ready : Bool) :
    r.tick input ready =
      { engine := r.engine.stepIdle input, taken := r.taken ++ input.toList, sent := r.sent } := by
  cases input <;> simp [tick, Engine.tick, hphase]

/-- An idle engine stays so as long as no packet is complete. -/
theorem reads_unmarked {steps : List (Option Flit × Bool)} (hphase : r.engine.phase = .idle)
    (hopen : ∀ f ∈ (steps.map Prod.fst).reduceOption, f.last = false) :
    (r.more steps).engine.phase = .idle ∧
      (r.more steps).taken = r.taken ++ (steps.map Prod.fst).reduceOption ∧
      (r.more steps).sent = r.sent := by
  induction steps generalizing r with
  | nil => simp [more, hphase]
  | cons step steps ih =>
    obtain ⟨input, ready⟩ := step
    have htick := tick_idle hphase input ready
    have hinputs : (((input, ready) :: steps).map Prod.fst).reduceOption =
        input.toList ++ (steps.map Prod.fst).reduceOption := by
      cases input <;> rfl
    rw [hinputs] at hopen ⊢
    have hnone : (r.engine.reader.tick input).2.packet? = none :=
      PacketReader.packet?_of_unmarked fun f hf => hopen f (by simp [Option.mem_toList.mpr hf])
    obtain ⟨stats, hstep⟩ := Engine.stepIdle_eq hphase input
    have hnext : (r.tick input ready).engine.phase = .idle := by
      rw [htick, hstep, hnone]
      rfl
    obtain ⟨hidle, htaken, hsent⟩ := ih hnext fun f hf => hopen f (List.mem_append_right _ hf)
    refine ⟨hidle, ?_, ?_⟩
    · rw [← List.append_assoc]
      refine htaken.trans ?_
      rw [htick]
    · refine hsent.trans ?_
      rw [htick]

/-- An idle engine reads a request in the step that shows the last flit of it, and no earlier. -/
theorem reads_request {arriving : List (Option Flit × Bool)} {last : Flit} (ready : Bool)
    (hserves : r.engine.Serves u r.taken r.sent) (hidle : r.engine.isIdle = true)
    (hrun : Flit.IsRun ((arriving.map Prod.fst).reduceOption ++ [last]))
    (hpacket : Packet.ofFlits ((arriving.map Prod.fst).reduceOption ++ [last]) = .ok request) :
    let r' := r.more (arriving ++ [(some last, ready)])
    r'.engine.phase = .decode request ∧ r'.sent = r.sent ∧
      Packet.ofStream r'.taken = Packet.ofStream r.taken ++ [request] := by
  intro r'
  obtain ⟨hlast, hopen⟩ : last.last = true ∧
      ∀ f ∈ (arriving.map Prod.fst).reduceOption, f.last = false := by
    obtain ⟨xs, f, hflits, hlast, hopen⟩ := Flit.isRun_iff.mp hrun
    obtain ⟨hxs, hf⟩ := List.append_inj' hflits rfl
    obtain rfl := List.singleton_inj.mp hf
    exact ⟨hlast, hxs ▸ hopen⟩
  obtain ⟨hphase, hreader⟩ := Engine.isIdle_iff.mp hidle
  obtain ⟨hwaiting, htaken, hsent⟩ := reads_unmarked hphase hopen
  have hclosed : Flit.openRun r.taken = [] := by
    obtain ⟨done, hserving⟩ := hserves
    rw [← hserving.reader, hreader]
  -- What the engine has collected is the packet without its last flit.
  have hheld : (r.more arriving).engine.reader.flits = (arriving.map Prod.fst).reduceOption := by
    obtain ⟨done, hserving⟩ := serves_more hserves arriving
    rw [hserving.reader, htaken, Flit.openRun_append_of_closed hclosed,
      Flit.openRun_of_unmarked hopen]
  have houtcome : ((r.more arriving).engine.reader.tick (some last)).2.packet? = some request := by
    simp [PacketReader.tick, hlast, hheld, hpacket, ReadOutcome.packet?]
  obtain ⟨stats, hstep⟩ := Engine.stepIdle_eq hwaiting (some last)
  have htick : r' = _ :=
    (more_append r arriving _).trans (tick_idle hwaiting (some last) ready)
  refine ⟨?_, ?_, ?_⟩
  · rw [htick, hstep, houtcome]
    rfl
  · rw [htick]
    exact hsent
  · have hruns : Flit.runs r'.taken =
        Flit.runs r.taken ++ [(arriving.map Prod.fst).reduceOption ++ [last]] := by
      rw [← show Flit.runs _ = [_] from hrun, ← Flit.runs_append_of_closed hclosed, htick]
      show Flit.runs ((r.more arriving).taken ++ [last]) = _
      rw [htaken, List.append_assoc]
    rw [Packet.ofStream_of_runs_snoc hruns, hpacket]
    rfl

/-- A request that has arrived at an idle engine is what the engine works at, and its answer is what
the engine owes. -/
theorem owes_request {arriving : List (Option Flit × Bool)} {last : Flit} (ready : Bool)
    (hserves : r.engine.Serves u r.taken r.sent) (hidle : r.engine.isIdle = true)
    (hrun : Flit.IsRun ((arriving.map Prod.fst).reduceOption ++ [last]))
    (hpacket : Packet.ofFlits ((arriving.map Prod.fst).reduceOption ++ [last]) = .ok request)
    (hrequest : request.isRequest = true) :
    let r' := r.more (arriving ++ [(some last, ready)])
    r'.engine.phase = .decode request ∧ r'.engine.Busy ∧
      ∃ answer, (u.after (Packet.ofStream r.taken)).IsAnswer request answer ∧
        Owes u r' answer.toFlits := by
  intro r'
  obtain ⟨hphase, hsent, hread⟩ := reads_request ready hserves hidle hrun hpacket
  obtain ⟨answer, hanswer, hanswers⟩ :=
    u.answers_of_request (Packet.ofStream r.taken) [] hrequest
  refine ⟨hphase, ⟨by simp [r', hphase], fun other hother => ?_⟩, answer, hanswer,
    serves_more hserves _, ?_⟩
  · obtain rfl := EnginePhase.decode.inj (hphase.symm.trans hother)
    exact hrequest
  · rw [hsent, hserves.sent_of_isIdle hidle, hread, hanswers]
    simp

end EngineRun

/-- Take an engine with any configuration and backend, after any steps that have left it idle.  Let
a request come then, each flit of it in a step of its own with any empty steps in between.  Let
`first` be two if the payload has not the length that the kind of the request asks for; three if the
width is refused, since it is above the greatest one or since the register is a base register and
the width is not that of one word; four for a base register; and four and the latency of the backend
for a register of the backend.

Then the answer that the unit owes to the request leaves from the `first`-th step on after the one
that has shown the last flit.  With a sink that is always ready one flit leaves in each step; the
engine is idle after the step in which the last one leaves and not before, and until then it takes
no flit from the source, whatever that shows.  With any sink all this holds but for the steps in
which it refuses a flit that it is offered: by their number the last flit leaves later. -/
theorem service_takes_exactly (config : EngineConfig) (backend : ModuleBackend)
    (before arriving : List (Option Flit × Bool)) (last : Flit) (ready : Bool) (request : Packet)
    (kind : RegisterKind)
    (hidle : (EngineRun.ofSteps config backend before).engine.isIdle = true)
    (hrun : Flit.IsRun ((arriving.map Prod.fst).reduceOption ++ [last]))
    (hpacket : Packet.ofFlits ((arriving.map Prod.fst).reduceOption ++ [last]) = .ok request)
    (hkind : request.kind = .register kind) (hrequest : kind.isRequest = true) :
    let served := Packet.ofStream (EngineRun.ofSteps config backend before).taken
    let r := EngineRun.ofSteps config backend (before ++ (arriving ++ [(some last, ready)]))
    ∃ answer first,
      ((RegisterUnit.initial config backend).after served).IsAnswer request answer ∧
      (kind.requestLength? ≠ some request.payload.length → first = 2) ∧
      (kind.requestLength? = some request.payload.length →
        ∃ t, Transaction.parse kind request.payload = .ok t ∧
          first =
            if config.maxWidth.words < t.width.words ∨ t.address < config.boundary ∧ t.width ≠ .w16
            then 3
            else if t.address < config.boundary then 4
            else 4 + backend.latency) ∧
      (∀ steps, (∀ step ∈ steps, step.2 = true) → steps.length < first + answer.toFlits.length →
        let r' := r.more steps
        r'.taken = r.taken ∧
          r'.sent = r.sent ++ answer.toFlits.take (steps.length + 1 - first) ∧
          (r'.engine.isIdle = true ↔ steps.length + 1 = first + answer.toFlits.length)) ∧
      ∀ steps, steps.length < first + answer.toFlits.length + r.refusals steps →
        let r' := r.more steps
        r'.taken = r.taken ∧
          r'.sent = r.sent ++ answer.toFlits.take (steps.length + 1 - (first + r.refusals steps)) ∧
          (r'.engine.isIdle = true ↔
            steps.length + 1 = first + answer.toFlits.length + r.refusals steps) := by
  intro served r
  have hserves := EngineRun.serves config backend before
  have hmore : r = (EngineRun.ofSteps config backend before).more
      (arriving ++ [(some last, ready)]) := EngineRun.ofSteps_append config backend before _
  have hasked : request.isRequest = true := by
    rw [Packet.isRequest, hkind]
    exact hrequest
  obtain ⟨hphase, hbusy, answer, hanswer, howes⟩ :=
    EngineRun.owes_request ready hserves hidle hrun hpacket hasked
  rw [← hmore] at hphase hbusy howes
  obtain ⟨hconfig, hlatency⟩ := howes.serves.setup_eq
  have hdelay : r.engine.delay = config.decodeDelay backend.latency kind request.payload := by
    simp only [Engine.delay, hphase, hkind, hconfig, hlatency]
    rfl
  have hemits := howes.emits hbusy
  rw [hdelay] at hemits
  have hcases := config.decodeDelay_cases backend.latency hrequest request.payload
  generalize config.decodeDelay backend.latency kind request.payload = delay at hemits hcases
  refine ⟨answer, delay + 1, hanswer, ?_, ?_, fun steps hready hlength => ?_, hemits.of_first⟩
  · intro hlength
    rcases hcases with ⟨-, rfl⟩ | ⟨hright, -⟩
    · rfl
    · exact absurd hright hlength
  · intro hlength
    rcases hcases with ⟨hwrong, -⟩ | ⟨-, t, hparse, rfl⟩
    · exact absurd hlength hwrong
    · refine ⟨t, hparse, ?_⟩
      unfold EngineConfig.dispatchDelay
      split
      · rfl
      · split <;> omega
  · have hsteady := hemits.of_first steps
    rw [r.refusals_of_ready hready] at hsteady
    exact hsteady hlength

/-- A module with a slow backend that has served a write reads the register back.  The first of the
four flits of the answer leaves in the seventh step; with a sink that refuses it twice the last one
leaves in the twelfth. -/
theorem service_takes_exactly_slow :
    let config : EngineConfig := { identity := .standard .memoryAccess 0 }
    let backend : ModuleBackend := .map ((MapBackend.ofRange 0x200 0x300).withLatency 3)
    let write : Packet :=
      { dest := 1, src := 0x3ff, kind := .register (.writeRequest .w16), payload := [0x200, 9] }
    let read : Packet :=
      { dest := 1, src := 0x3ff, kind := .register (.readRequest .w16), payload := [0x200] }
    let answer : Packet :=
      { dest := 0x3ff, src := 1, kind := .register (.readSuccess .w16), payload := [9] }
    let before := write.toFlits.map (some ·, true) ++ List.replicate 9 (none, true)
    let arriving := (none, false) :: (read.toFlits.dropLast.map (some ·, true))
    let r := EngineRun.ofSteps config backend (before ++ (arriving ++ [(some ⟨0x200, true⟩, true)]))
    let stalled := List.replicate 6 (none, true) ++ List.replicate 2 (none, false) ++
      List.replicate 4 (none, true)
    (EngineRun.ofSteps config backend before).engine.isIdle = true ∧
      Flit.IsRun ((arriving.map Prod.fst).reduceOption ++ [⟨0x200, true⟩]) ∧
      Packet.ofFlits ((arriving.map Prod.fst).reduceOption ++ [⟨0x200, true⟩]) = .ok read ∧
      r.refusals stalled = 2 ∧
      (∀ n ≤ 10, (r.more (List.replicate n (none, true))).sent =
        r.sent ++ answer.toFlits.take (n - 6)) ∧
      (r.more stalled).sent = r.sent ++ answer.toFlits ∧ (r.more stalled).engine.isIdle = true := by
  intro config backend write read answer before arriving r stalled
  have hidle : (EngineRun.ofSteps config backend before).engine.isIdle = true := by decide +kernel
  have hrun : Flit.IsRun ((arriving.map Prod.fst).reduceOption ++ [⟨0x200, true⟩]) := by
    unfold Flit.IsRun
    decide +kernel
  have hpacket : Packet.ofFlits ((arriving.map Prod.fst).reduceOption ++ [⟨0x200, true⟩]) =
      .ok read := by decide +kernel
  have hrefusals : r.refusals stalled = 2 := by decide +kernel
  obtain ⟨answer', first, hanswer, -, hfirst, hsteady, hstalled⟩ :=
    service_takes_exactly config backend before arriving ⟨0x200, true⟩ true read
      (.readRequest .w16) hidle hrun hpacket rfl rfl
  have hcontent : ((RegisterUnit.initial config backend).after
      (Packet.ofStream (EngineRun.ofSteps config backend before).taken)).content? 0x200 =
        some 9 := by decide +kernel
  obtain rfl : answer' = answer := by
    cases hanswer with
    | readGranted hkind hpayload hadmits hfound =>
      cases hkind
      cases hpayload
      obtain rfl := Option.some.inj (hfound.symm.trans hcontent)
      decide
    | readRefused hkind hrefused =>
      cases hkind
      have hnothing := hrefused 0x200 rfl (by decide +kernel)
      rw [hcontent] at hnothing
      cases hnothing
    | writeGranted hkind | writeRefused hkind => cases hkind
  obtain rfl : first = 7 := by
    obtain ⟨t, hparse, rfl⟩ := hfirst rfl
    obtain rfl := Except.ok.inj hparse
    decide
  have hlength : answer.toFlits.length = 4 := rfl
  obtain ⟨-, hsent, hdone⟩ := hstalled stalled (by rw [hrefusals]; decide)
  rw [hrefusals] at hsent hdone
  refine ⟨hidle, hrun, hpacket, hrefusals, fun n hn => ?_, hsent, hdone.mpr rfl⟩
  have hless : (List.replicate n ((none : Option Flit), true)).length <
      7 + answer.toFlits.length := by
    rw [List.length_replicate, hlength]
    omega
  obtain ⟨-, hgone, -⟩ := hsteady _ (fun step hstep => by rw [List.eq_of_mem_replicate hstep]) hless
  rw [hgone, List.length_replicate, Nat.add_sub_add_right]

end ProbeNet
