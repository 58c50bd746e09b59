import ProbeNet.Proofs.Engine.Serving

/-!
# How an engine calls its backend

A backend may do anything in a call, so it matters which calls an engine makes and when.  It
announces a transaction once, then it polls this transaction once in every step until it is
ready, and after that it leaves the backend alone until the next announcement.  The transactions
are those of the requests that the backend has to serve, each once and in order.  No other packet
reaches the backend in any way.

Nothing here depends on what the backend is.  `Register.Watched` puts one into a shell that keeps
the calls; an engine does not notice the shell (`tick_mapBackend`), so `Engine.callsIn` are the
calls that it makes in a step.  `InBlocks` is what they have to be, `Engine.Drives` is the
invariant of the steps, and `backend_called_in_blocks` is what a run comes to.
-/

namespace ProbeNet

open Register

/-! ## Backends that are watched -/

namespace Register

/-- A call of an engine to its backend; of a poll also what the backend said. -/
inductive BackendCall where
  | start (t : Transaction)
  | poll (t : Transaction) (progress : Progress)

/-- A backend, and the calls that were made to it. -/
structure Watched (β : Type) where
  backend : β
  calls : List BackendCall := []

instance {β : Type} [Backend β] : Backend (Watched β) where
  start b t := { backend := Backend.start b.backend t, calls := b.calls ++ [.start t] }
  poll b t :=
    let (backend, progress) := Backend.poll b.backend t
    ({ backend, calls := b.calls ++ [.poll t progress] }, progress)

/-- The calls that were made in each step come in blocks.  A block is the announcement of a
transaction and a poll of this transaction in every step after it, up to the poll that finds it
ready.  `begun` are the transactions of the blocks, and `underway` is that of the last block as
long as it is not ready. -/
inductive InBlocks : List (List BackendCall) → List Transaction → Option Transaction → Prop where
  | nil : InBlocks [] [] none
  | quiet {steps : List (List BackendCall)} {begun : List Transaction}
      (h : InBlocks steps begun none) : InBlocks (steps ++ [[]]) begun none
  | start {steps : List (List BackendCall)} {begun : List Transaction}
      (h : InBlocks steps begun none) (t : Transaction) :
      InBlocks (steps ++ [[.start t]]) (begun ++ [t]) (some t)
  | pending {steps : List (List BackendCall)} {begun : List Transaction} {t : Transaction}
      (h : InBlocks steps begun (some t)) :
      InBlocks (steps ++ [[.poll t .pending]]) begun (some t)
  | ready {steps : List (List BackendCall)} {begun : List Transaction} {t : Transaction}
      (h : InBlocks steps begun (some t)) (result : Except Fault Value) :
      InBlocks (steps ++ [[.poll t (.ready result)]]) begun none

end Register

/-! ## What the backend has to serve -/

/-- The transaction that a packet is for the backend: it is a request that can be taken apart, its
width is admitted, and its address is not one of the base registers. -/
def EngineConfig.backendTransaction? (config : EngineConfig) (p : Packet) : Option Transaction :=
  match p.kind with
  | .register kind => (Transaction.parse kind p.payload).toOption.filter fun t =>
      t.width.words ≤ config.maxWidth.words ∧ config.boundary ≤ t.address
  | _ => none

namespace EngineConfig

variable {config : EngineConfig} {p : Packet} {t : Transaction}

theorem backendTransaction?_eq_some_iff :
    config.backendTransaction? p = some t ↔
      Engine.AsksFor p t ∧ t.width.words ≤ config.maxWidth.words ∧ config.boundary ≤ t.address := by
  unfold backendTransaction? Engine.AsksFor
  cases hkind : p.kind with
  | register kind =>
    cases hparse : Transaction.parse kind p.payload <;>
      simp [Except.toOption, Option.filter_eq_some_iff, hparse]
  | _ => simp

theorem backendTransaction?_of_asksFor (h : Engine.AsksFor p t) :
    config.backendTransaction? p =
      if t.width.words ≤ config.maxWidth.words ∧ config.boundary ≤ t.address then some t
      else none := by
  obtain ⟨kind, hkind, hparse⟩ := h
  simp [backendTransaction?, hkind, hparse, Except.toOption, Option.filter]

theorem backendTransaction?_of_not_asksFor (h : ∀ t, ¬ Engine.AsksFor p t) :
    config.backendTransaction? p = none :=
  Option.eq_none_iff_forall_ne_some.mpr fun t ht => h t (backendTransaction?_eq_some_iff.mp ht).1

end EngineConfig

/-- The packet that has been read and not yet been sent to the registers. -/
def EnginePhase.undispatched : EnginePhase → Option Packet
  | .decode request | .dispatch request _ => some request
  | .idle | .await .. | .conclude .. | .respond => none

/-- The transaction that the backend has been told and has not completed. -/
def EnginePhase.underway : EnginePhase → Option Transaction
  | .await _ t .backend => some t
  | .idle | .decode _ | .dispatch .. | .await _ _ .base | .conclude .. | .respond => none

namespace Engine

variable {α β : Type}

/-! ## Engines do not look into their backend -/

/-- The same engine with another backend. -/
def mapBackend (f : α → β) (e : Engine α) : Engine β where
  config := e.config
  registers := e.registers
  backend := f e.backend
  phase := e.phase
  reader := e.reader
  writer := e.writer
  stats := e.stats

def Step.mapBackend (f : α → β) (s : Step α) : Step β where
  engine := s.engine.mapBackend f
  taken := s.taken
  offered := s.offered

/-- An engine does the same with two backends that do the same in every call. -/
theorem tick_mapBackend [Backend α] [Backend β] {f : α → β}
    (hstart : ∀ b t, Backend.start (f b) t = f (Backend.start b t))
    (hpoll : ∀ b t, Backend.poll (f b) t = (f (Backend.poll b t).1, (Backend.poll b t).2))
    (e : Engine α) (input : Option Flit) (ready : Bool) :
    (e.mapBackend f).tick input ready = (e.tick input ready).mapBackend f := by
  obtain ⟨config, registers, backend, phase, reader, writer, stats⟩ := e
  cases phase with
  | idle =>
    simp only [tick, mapBackend, Step.mapBackend, stepIdle]
    cases (reader.tick input).2 <;> rfl
  | decode request =>
    simp only [tick, mapBackend, Step.mapBackend, stepDecode]
    split
    · split
      · split <;> rfl
      · rfl
    · rfl
  | dispatch request t =>
    simp only [tick, mapBackend, Step.mapBackend, stepDispatch, hstart]
    split
    · rfl
    · split
      · split <;> rfl
      · rfl
  | await request t responder =>
    cases responder with
    | base => rfl
    | backend =>
      simp only [tick, mapBackend, Step.mapBackend, stepAwait, hpoll]
      rcases Backend.poll backend t with ⟨b, _ | result⟩ <;> rfl
  | conclude request t outcome => cases outcome <;> rfl
  | respond => rfl

/-- The engine with a backend that is watched from now on. -/
def watched (e : Engine β) : Engine (Watched β) := e.mapBackend fun backend => { backend }

/-- Nothing that an engine does depends on whether its backend is watched. -/
theorem tick_watched [Backend β] (e : Engine β) (input : Option Flit) (ready : Bool) :
    (e.watched.tick input ready).mapBackend Watched.backend = e.tick input ready := by
  rw [← tick_mapBackend (fun _ _ => rfl) (fun _ _ => rfl)]
  rfl

/-- The calls that an engine makes to its backend in a step. -/
def callsIn [Backend β] (e : Engine β) (input : Option Flit) (ready : Bool) : List BackendCall :=
  (e.watched.tick input ready).engine.backend.calls

/-! ## The calls of a step -/

theorem stepRespond_phase (e : Engine β) (ready : Bool) :
    (e.stepRespond ready).1.phase.undispatched = none ∧
      (e.stepRespond ready).1.phase.underway = none := by
  simp only [stepRespond]
  split <;> exact ⟨rfl, rfl⟩

section Steps

variable [Backend β] {e : Engine β}

/-- An engine that neither dispatches a transaction nor waits for the backend leaves it alone. -/
theorem callsIn_of_quiet (hdispatch : ∀ request t, e.phase ≠ .dispatch request t)
    (hunderway : e.phase.underway = none) (input : Option Flit) (ready : Bool) :
    e.callsIn input ready = [] := by
  unfold callsIn watched
  cases hphase : e.phase with
  | idle =>
    simp only [mapBackend, tick, hphase, stepIdle]
    cases (e.reader.tick input).2 <;> rfl
  | decode request =>
    simp only [mapBackend, tick, hphase, stepDecode]
    split
    · split
      · split <;> rfl
      · rfl
    · rfl
  | dispatch request t => exact absurd hphase (hdispatch request t)
  | await request t responder =>
    cases responder with
    | base => simp only [mapBackend, tick, hphase, stepAwait]
    | backend =>
      rw [hphase] at hunderway
      cases hunderway
  | conclude request t outcome =>
    simp only [mapBackend, tick, hphase, stepRespond]
    cases outcome <;> rfl
  | respond => simp only [mapBackend, tick, hphase, stepRespond]

/-- The backend serves a transaction that is not too wide and not for a base register. -/
theorem stepDispatch_of_served {request : Packet} {t : Transaction}
    (h : t.width.words ≤ e.config.maxWidth.words ∧ e.config.boundary ≤ t.address) :
    e.stepDispatch request t =
      { e with phase := .await request t .backend, backend := Backend.start e.backend t } := by
  rw [stepDispatch, if_neg (Nat.not_lt.mpr h.1), if_neg (BitVec.not_lt.mpr h.2)]

theorem stepDispatch_of_not_served (request : Packet) {t : Transaction}
    (h : ¬ (t.width.words ≤ e.config.maxWidth.words ∧ e.config.boundary ≤ t.address)) :
    ∃ phase : EnginePhase, phase.undispatched = none ∧ phase.underway = none ∧
      e.stepDispatch request t = { e with phase } := by
  unfold stepDispatch
  split
  · exact ⟨_, rfl, rfl, rfl⟩
  · rename_i hwide
    split
    · split <;> exact ⟨_, rfl, rfl, rfl⟩
    · rename_i hbase
      exact absurd ⟨Nat.not_lt.mp hwide, BitVec.not_lt.mp hbase⟩ h

/-- A transaction that is refused or for the base registers is not announced. -/
theorem callsIn_dispatch {request : Packet} {t : Transaction}
    (hphase : e.phase = .dispatch request t) (input : Option Flit) (ready : Bool) :
    e.callsIn input ready =
      if t.width.words ≤ e.config.maxWidth.words ∧ e.config.boundary ≤ t.address then [.start t]
      else [] := by
  have hconfig : e.watched.config = e.config := rfl
  simp only [callsIn, tick, show e.watched.phase = .dispatch request t from hphase]
  split
  · rename_i hserved
    rw [stepDispatch_of_served (e := e.watched) hserved]
    rfl
  · rename_i hserved
    obtain ⟨phase, -, -, hstep⟩ := stepDispatch_of_not_served (e := e.watched) request hserved
    rw [hstep]
    rfl

theorem callsIn_await {request : Packet} {t : Transaction}
    (hphase : e.phase = .await request t .backend) (input : Option Flit) (ready : Bool) :
    e.callsIn input ready = [.poll t (Backend.poll e.backend t).2] := by
  simp only [callsIn, watched, mapBackend, tick, hphase, stepAwait]
  rcases hpoll : Backend.poll e.backend t with ⟨b, _ | result⟩ <;> simp [Backend.poll, hpoll]

end Steps

/-! ## What every step keeps -/

/-- An engine has taken the flits `taken` and made the calls `calls` in its steps.  The packets
`done` have been dispatched or dropped. -/
structure Drives (config : EngineConfig) (e : Engine β) (taken : List Flit)
    (calls : List (List BackendCall)) (done : List Packet) : Prop where
  reader : e.reader.flits = Flit.openRun taken
  packets : Packet.ofStream taken = done ++ e.phase.undispatched.toList
  blocks : InBlocks calls (done.filterMap config.backendTransaction?) e.phase.underway
  asks : ∀ request t, e.phase = .dispatch request t → AsksFor request t
  setup : e.config = config

variable {config : EngineConfig} {e : Engine β} {taken : List Flit}
  {calls : List (List BackendCall)} {done : List Packet}

theorem drives_initial (config : EngineConfig) (backend : β) :
    Drives config (.initial config backend) [] [] [] :=
  ⟨rfl, rfl, .nil, fun _ _ h => (by cases h), rfl⟩

theorem Drives.stepIdle (h : Drives config e taken calls done) (hphase : e.phase = .idle)
    (input : Option Flit) :
    Drives config (e.stepIdle input) (taken ++ input.toList) (calls ++ [[]]) done := by
  obtain ⟨stats, hstep⟩ := stepIdle_eq hphase input
  have hblocks := h.blocks
  have hdone : Packet.ofStream taken = done := by
    simpa [hphase, EnginePhase.undispatched] using h.packets
  rw [hphase] at hblocks
  rw [hstep]
  refine ⟨PacketReader.flits_tick h.reader input, ?_, ?_, ?_, h.setup⟩
  · rw [PacketReader.packet?_tick h.reader input, hdone]
    cases (e.reader.tick input).2.packet? <;> rfl
  · cases (e.reader.tick input).2.packet? <;> exact hblocks.quiet
  · intro request t hdispatch
    cases hpacket : (e.reader.tick input).2.packet? <;> rw [hpacket] at hdispatch <;>
      cases hdispatch

/-- A step that makes no call may be done with a packet that the backend does not serve. -/
theorem Drives.quiet (h : Drives config e taken calls done) (e' : Engine β)
    (hreader : e'.reader = e.reader) (hconfig : e'.config = e.config)
    (hunderway : e.phase.underway = none) (hunderway' : e'.phase.underway = none)
    (hundispatched : e'.phase.undispatched = none)
    (hnone : ∀ p ∈ e.phase.undispatched, config.backendTransaction? p = none) :
    Drives config e' taken (calls ++ [[]]) (done ++ e.phase.undispatched.toList) := by
  have hskipped : e.phase.undispatched.toList.filterMap config.backendTransaction? = [] :=
    List.filterMap_eq_nil_iff.mpr fun p hp => hnone p (Option.mem_toList.mp hp)
  have hblocks := h.blocks
  rw [hunderway] at hblocks
  refine ⟨?_, ?_, ?_, ?_, hconfig.trans h.setup⟩
  · rw [hreader]
    exact h.reader
  · rw [hundispatched]
    simpa using h.packets
  · rw [hunderway', List.filterMap_append, hskipped, List.append_nil]
    exact hblocks.quiet
  · intro request t hdispatch
    rw [hdispatch] at hundispatched
    cases hundispatched

/-- A step that makes no call may also leave everything to the steps after it. -/
theorem Drives.pass (h : Drives config e taken calls done) (e' : Engine β)
    (hreader : e'.reader = e.reader) (hconfig : e'.config = e.config)
    (hundispatched : e.phase.undispatched = none) (hunderway : e.phase.underway = none)
    (hundispatched' : e'.phase.undispatched = none) (hunderway' : e'.phase.underway = none) :
    Drives config e' taken (calls ++ [[]]) done := by
  have hstep := h.quiet e' hreader hconfig hunderway hunderway' hundispatched'
    (by simp [hundispatched])
  simpa [hundispatched] using hstep

theorem AsksFor.isRequest {request : Packet} {t : Transaction} (h : AsksFor request t) :
    request.isRequest = true := by
  obtain ⟨kind, hkind, hparse⟩ := h
  unfold Packet.isRequest
  rw [hkind]
  rcases RegisterUnit.parse_cases hparse with ⟨w, a, rfl, -⟩ | ⟨w, a, ws, rfl, -⟩ <;> rfl

theorem Drives.stepDecode {request : Packet} (h : Drives config e taken calls done)
    (hphase : e.phase = .decode request) :
    ∃ done', Drives config (e.stepDecode request) taken (calls ++ [[]]) done' := by
  have hunderway : e.phase.underway = none := congrArg EnginePhase.underway hphase
  have hnone : (∀ t, ¬ AsksFor request t) →
      ∀ p ∈ e.phase.undispatched, config.backendTransaction? p = none := by
    intro hasks p hp
    rw [hphase] at hp
    obtain rfl := Option.some.inj hp
    exact EngineConfig.backendTransaction?_of_not_asksFor hasks
  obtain ⟨stats, ⟨hother, hstep⟩ | ⟨t, hasks, hstep⟩ |
    ⟨kind, error, hkind, -, hparse, hstep⟩⟩ := e.stepDecode_cases request
  · have hasks : ∀ t, ¬ AsksFor request t := fun t h => by simp [h.isRequest] at hother
    rw [hstep]
    exact ⟨_, h.quiet _ rfl rfl hunderway rfl rfl (hnone hasks)⟩
  · have hblocks := h.blocks
    have hpackets := h.packets
    rw [hunderway] at hblocks
    rw [hphase] at hpackets
    rw [hstep]
    refine ⟨done, h.reader, hpackets, hblocks.quiet, fun request' t' hdispatch => ?_, h.setup⟩
    cases hdispatch
    exact hasks
  · have hasks : ∀ t, ¬ AsksFor request t := by
      rintro t ⟨kind', hkind', hparse'⟩
      rw [hkind] at hkind'
      obtain rfl := PacketKind.register.inj hkind'
      cases hparse.symm.trans hparse'
    rw [hstep]
    exact ⟨_, h.quiet _ rfl rfl hunderway rfl rfl (hnone hasks)⟩

section Calls

variable [Backend β]

/-- A packet that is dispatched begins a block, or it is none that the backend has to serve. -/
theorem Drives.stepDispatch {request : Packet} {t : Transaction}
    (h : Drives config e taken calls done)
    (hphase : e.phase = .dispatch request t) (input : Option Flit) (ready : Bool) :
    Drives config (e.stepDispatch request t) taken (calls ++ [e.callsIn input ready])
      (done ++ [request]) := by
  obtain rfl := h.setup
  have hserves : e.config.backendTransaction? request =
      if t.width.words ≤ e.config.maxWidth.words ∧ e.config.boundary ≤ t.address then some t
      else none :=
    EngineConfig.backendTransaction?_of_asksFor (h.asks request t hphase)
  have hpackets := h.packets
  have hblocks := h.blocks
  rw [hphase] at hpackets hblocks
  rw [callsIn_dispatch hphase]
  split
  · rename_i hserved
    rw [if_pos hserved] at hserves
    rw [stepDispatch_of_served hserved]
    refine ⟨h.reader, ?_, ?_, fun _ _ hdispatch => (by cases hdispatch), h.setup⟩
    · simpa [EnginePhase.undispatched] using hpackets
    · rw [List.filterMap_append, List.filterMap_cons_some hserves]
      exact hblocks.start t
  · rename_i hserved
    rw [if_neg hserved] at hserves
    obtain ⟨phase, hundispatched, hunderway, hstep⟩ := stepDispatch_of_not_served request hserved
    have hdone := h.quiet (e.stepDispatch request t) (by rw [hstep]) (by rw [hstep])
      (congrArg EnginePhase.underway hphase) (by rw [hstep]; exact hunderway)
      (by rw [hstep]; exact hundispatched)
    rw [hphase] at hdone
    exact hdone fun p hp => Option.some.inj hp ▸ hserves

/-- A poll leaves the transaction under way, or it completes it. -/
theorem Drives.stepAwait {request : Packet} {t : Transaction} (h : Drives config e taken calls done)
    (hphase : e.phase = .await request t .backend) :
    Drives config (e.stepAwait request t .backend) taken
      (calls ++ [[.poll t (Backend.poll e.backend t).2]]) done := by
  -- The transaction of the phase is the one that was announced, so the poll belongs to its block.
  have hpackets := h.packets
  have hblocks := h.blocks
  rw [hphase] at hpackets hblocks
  simp only [Engine.stepAwait]
  rcases Backend.poll e.backend t with ⟨backend, _ | result⟩
  · refine ⟨h.reader, ?_, ?_, fun request' t' hdispatch => ?_, h.setup⟩
    · rw [hphase]
      exact hpackets
    · rw [hphase]
      exact hblocks.pending
    · rw [hphase] at hdispatch
      cases hdispatch
  · exact ⟨h.reader, hpackets, hblocks.ready result, fun _ _ hdispatch => (by cases hdispatch),
      h.setup⟩

/-- Each step makes the calls that it has to make, and no others. -/
theorem Drives.tick (h : Drives config e taken calls done) (input : Option Flit) (ready : Bool) :
    ∃ done', Drives config (e.tick input ready).engine
      (taken ++ if (e.tick input ready).taken then input.toList else [])
      (calls ++ [e.callsIn input ready]) done' := by
  cases hphase : e.phase with
  | idle =>
    have hstep := h.stepIdle hphase input
    rw [callsIn_of_quiet (by simp [hphase]) (congrArg EnginePhase.underway hphase)]
    refine ⟨done, ?_⟩
    cases input <;> simpa [Engine.tick, hphase] using hstep
  | decode request =>
    obtain ⟨done', hstep⟩ := h.stepDecode hphase
    rw [callsIn_of_quiet (by simp [hphase]) (congrArg EnginePhase.underway hphase)]
    exact ⟨done', by simpa [Engine.tick, hphase] using hstep⟩
  | dispatch request t =>
    have hstep := h.stepDispatch hphase input ready
    exact ⟨_, by simpa [Engine.tick, hphase] using hstep⟩
  | await request t responder =>
    cases responder with
    | base =>
      have hstep := h.pass (e.stepAwait request t .base) rfl rfl
        (congrArg EnginePhase.undispatched hphase) (congrArg EnginePhase.underway hphase) rfl rfl
      rw [callsIn_of_quiet (by simp [hphase]) (congrArg EnginePhase.underway hphase)]
      exact ⟨done, by simpa [Engine.tick, hphase] using hstep⟩
    | backend =>
      rw [callsIn_await hphase]
      exact ⟨done, by simpa [Engine.tick, hphase] using h.stepAwait hphase⟩
  | conclude request t outcome =>
    obtain ⟨stats, hconclude⟩ := e.stepConclude_eq request t outcome
    have hstep := h.pass ((e.stepConclude request t outcome).stepRespond ready).1
      (by rw [hconclude]; rfl) (by rw [hconclude]; rfl)
      (congrArg EnginePhase.undispatched hphase) (congrArg EnginePhase.underway hphase)
      (stepRespond_phase _ ready).1 (stepRespond_phase _ ready).2
    rw [callsIn_of_quiet (by simp [hphase]) (congrArg EnginePhase.underway hphase)]
    exact ⟨done, by simpa [Engine.tick, hphase] using hstep⟩
  | respond =>
    have hstep := h.pass (e.stepRespond ready).1 rfl rfl
      (congrArg EnginePhase.undispatched hphase) (congrArg EnginePhase.underway hphase)
      (stepRespond_phase e ready).1 (stepRespond_phase e ready).2
    rw [callsIn_of_quiet (by simp [hphase]) (congrArg EnginePhase.underway hphase)]
    exact ⟨done, by simpa [Engine.tick, hphase] using hstep⟩

end Calls

end Engine

/-! ## Runs -/

/-- An engine, the flits that it has taken, and the calls that it has made in each of its steps. -/
structure CallRun (β : Type) where
  engine : Engine β
  taken : List Flit := []
  calls : List (List BackendCall) := []

namespace CallRun

variable {β : Type} [Backend β]

/-- One step between a source that shows `input` and a sink that is ready or not. -/
def tick (r : CallRun β) (input : Option Flit) (ready : Bool) : CallRun β :=
  let step := r.engine.tick input ready
  { engine := step.engine
    taken := r.taken ++ if step.taken then input.toList else []
    calls := r.calls ++ [r.engine.callsIn input ready] }

/-- A run of an engine that has served nothing yet. -/
def ofSteps (config : EngineConfig) (backend : β) (steps : List (Option Flit × Bool)) :
    CallRun β :=
  steps.foldl (fun r step => r.tick step.1 step.2) { engine := .initial config backend }

theorem drives (config : EngineConfig) (backend : β) (steps : List (Option Flit × Bool)) :
    ∃ done, Engine.Drives config (ofSteps config backend steps).engine
      (ofSteps config backend steps).taken (ofSteps config backend steps).calls done := by
  unfold ofSteps
  induction steps using List.reverseRecOn with
  | nil => exact ⟨[], Engine.drives_initial config backend⟩
  | append_singleton steps step ih =>
    obtain ⟨done, h⟩ := ih
    rw [List.foldl_append]
    exact h.tick step.1 step.2

end CallRun

/-- Take any backend, and any run of an engine with it, whatever the source shows and whenever the
sink is ready.

The calls of the engine come in blocks.  Each block announces a transaction and polls it once in
every step after that, until the backend has completed it; between two blocks there is no call.
The blocks are those of the packets that have been dispatched, one for each that the backend has
to serve, in the order in which they were read.  The backend has to serve a packet if it is a
request that can be taken apart, not too wide, and not for a base register.  And it does not
matter for what the engine does that its calls are watched. -/
theorem backend_called_in_blocks {β : Type} [Backend β] (config : EngineConfig) (backend : β)
    (steps : List (Option Flit × Bool)) :
    let r := CallRun.ofSteps config backend steps
    (∃ done, Packet.ofStream r.taken = done ++ r.engine.phase.undispatched.toList ∧
      InBlocks r.calls (done.filterMap config.backendTransaction?) r.engine.phase.underway) ∧
    (∀ p t, config.backendTransaction? p = some t ↔ Engine.AsksFor p t ∧
      t.width.words ≤ config.maxWidth.words ∧ config.boundary ≤ t.address) ∧
    ∀ input ready,
      (r.engine.watched.tick input ready).mapBackend Watched.backend =
        r.engine.tick input ready := by
  intro r
  obtain ⟨done, h⟩ := CallRun.drives config backend steps
  exact ⟨⟨done, h.packets, h.blocks⟩,
    fun _ _ => EngineConfig.backendTransaction?_eq_some_iff, r.engine.tick_watched⟩

/-- A request for a base register and one for a register of a backend that takes its time: only
the second one reaches the backend. -/
example :
    let read (address : Word) : List Flit := Packet.toFlits
      { dest := 1, src := 0x3ff, kind := .register (.readRequest .w16), payload := [address] }
    let exchange (address : Word) : List (Option Flit × Bool) :=
      (read address).map (some ·, true) ++ List.replicate 9 (none, true)
    let r := CallRun.ofSteps { identity := .standard .memoryAccess 0 }
      ((MapBackend.ofRange 0x200 0x300).withLatency 2) (exchange 3 ++ exchange 0x200)
    let t := Transaction.read 0x200 .w16
    r.calls.flatten = [.start t, .poll t .pending, .poll t .pending, .poll t (.ready (.ok 0))] := by
  rfl

end ProbeNet
