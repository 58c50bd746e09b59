import ProbeNet.Proofs.Engine.Progress
import ProbeNet.Proofs.Module.Flow

/-!
# What a module has left to do

A flit that an engine reads may turn into much work behind it: the request is
served, the backend is waited for, an answer is written.  `Work` therefore keeps
two numbers, the work in front of the engines and the work behind them, and the
first decides.

* `DebugModule.work` counts for each flit how many places it has to pass.
* `DebugModule.Rests` holds when nothing in a module can move.
* `Flows.tick_work` says that a step of a module makes its work less, or the
  module rests or its output is not ready.
* `Flows.of_rests` says what rests: the beginning of a packet at the input, and
  nothing else.
-/

namespace ProbeNet

open Register

/-- An amount of work, in front of the engines and behind them. -/
@[ext]
structure Work where
  ahead : Nat
  behind : Nat

namespace Work

/-- One work is less than another. -/
def Less (w v : Work) : Prop := w.ahead < v.ahead ∨ w.ahead = v.ahead ∧ w.behind < v.behind

/-- One work is not more than another. -/
def AtMost (w v : Work) : Prop := w.Less v ∨ w = v

variable {w v x : Work}

theorem AtMost.trans_less (h : w.AtMost v) (h' : v.Less x) : w.Less x := by
  rcases h with hless | rfl
  · unfold Less at *
    omega
  · exact h'

theorem AtMost.trans (h : w.AtMost v) (h' : v.AtMost x) : w.AtMost x := by
  rcases h' with hless | rfl
  · exact Or.inl (h.trans_less hless)
  · exact h

theorem wellFounded_less : WellFounded Less := by
  have hlex := (Prod.lex Nat.lt_wfRel Nat.lt_wfRel).wf
  refine Subrelation.wf ?_ (InvImage.wf (fun w : Work => (w.ahead, w.behind)) hlex)
  intro w v h
  exact Prod.lex_def.mpr h

end Work

/-! ## The work of a demultiplexer -/

namespace Demux

variable {d : Demux} {taken : List Flit} {out : Route → List Flit}

/-- Presenting a flit moves it, or there is none, or its way is not free. -/
theorem present_work (d : Demux) (route : Route) (pending : List Flit) (tailSeen took : Bool)
    (ready : Route → Bool) :
    2 * (d.present route pending tailSeen took ready).demux.held.length +
      (d.present route pending tailSeen took ready).moved.toList.length < 2 * pending.length ∨
    (d.present route pending tailSeen took ready).demux.held = pending ∧
      (d.present route pending tailSeen took ready).moved = none ∧
      (pending = [] ∨ ready route = false) := by
  cases pending with
  | nil => exact Or.inr ⟨rfl, rfl, Or.inl rfl⟩
  | cons f rest =>
    cases hready : ready route with
    | false =>
      simp only [present, hready]
      exact Or.inr ⟨rfl, rfl, Or.inr trivial⟩
    | true =>
      refine Or.inl ?_
      simp only [present, hready, if_true, Step.moved, Option.toList_some, List.length_cons]
      cases f.last with
      | true =>
        show 2 * 0 + (0 + 1) < _
        omega
      | false =>
        show 2 * rest.length + (0 + 1) < _
        omega

/-- A flit that is taken into the header makes the work less. -/
theorem Carries.tick_header_work (h : d.Carries taken out) {held : List Flit}
    (hphase : d.phase = .header held) (f : Flit) (ready : Route → Bool) :
    2 * (d.tick (some f) ready).demux.held.length + (d.tick (some f) ready).moved.toList.length <
      2 * held.length + if (d.tick (some f) ready).taken then 3 else 0 := by
  rw [(h.tick_header hphase f ready).2, if_pos rfl]
  obtain ⟨-, hshort, -⟩ := h.header hphase
  rcases tick_header_cases hphase hshort f ready with ⟨dest, src, rfl, hstep⟩ | ⟨-, hstep⟩
  · rw [hstep]
    rcases d.present_work (Route.ofClass (PacketKind.classOfFlags f.word)) [dest, src, f] f.last true
      ready with hless | ⟨hsame, hmoved, -⟩
    · simp only [List.length_cons, List.length_nil] at hless ⊢
      omega
    · rw [hsame, hmoved]
      show 2 * 3 + 0 < 2 * 2 + 3
      omega
  · rw [hstep]
    show 2 * (if f.last then [] else held ++ [f]).length + 0 < _
    split
    · show 2 * 0 + 0 < _
      omega
    · rw [List.length_append, List.length_singleton]
      omega

/-- A step makes the work less.  When both ways are free the demultiplexer can
only wait for a flit, and not behind the last one of a packet. -/
theorem Carries.tick_work (h : d.Carries taken out) (input : Option Flit) (ready : Route → Bool) :
    (2 * (d.tick input ready).demux.held.length + (d.tick input ready).moved.toList.length <
      2 * d.held.length + if (d.tick input ready).taken then 3 * input.toList.length else 0) ∨
    ((d.tick input ready).demux.held = d.held ∧ (d.tick input ready).moved = none ∧
      (d.tick input ready).taken = false ∧ ((∀ way, ready way = true) →
        input = none ∧ ∀ route pending, d.phase ≠ .forward route pending true)) := by
  cases hphase : d.phase with
  | header held =>
    cases input with
    | none =>
      refine Or.inr ?_
      simp only [Demux.tick, hphase]
      exact ⟨trivial, rfl, trivial, fun _ => ⟨trivial, fun _ _ hforward => by cases hforward⟩⟩
    | some f =>
      have hheld : d.held = held := by simp only [Demux.held, hphase]
      rw [hheld]
      exact Or.inl (h.tick_header_work hphase f ready)
  | forward route pending tailSeen =>
    have hheld : d.held = pending := by simp only [Demux.held, hphase]
    rw [hheld]
    rcases tick_forward_cases hphase input ready with ⟨f, rfl, rfl, rfl, hstep⟩ | ⟨hwaits, hstep⟩
    · refine Or.inl ?_
      rw [hstep, present_taken, if_pos rfl]
      rcases d.present_work route [f] f.last true ready with hless | ⟨hsame, hmoved, -⟩
      · exact Nat.lt_trans hless (Nat.lt_succ_self 2)
      · rw [hsame, hmoved]
        exact Nat.lt_succ_self 2
    · rw [hstep, present_taken]
      rcases d.present_work route pending tailSeen false ready with hless | ⟨hsame, hmoved, hstuck⟩
      · exact Or.inl hless
      · refine Or.inr ⟨hsame, hmoved, rfl, fun hready => ?_⟩
        have hpending : pending = [] := by
          rcases hstuck with hnil | hbusy
          · exact hnil
          · rw [hready route] at hbusy
            cases hbusy
        subst hpending
        unfold Carries at h
        rw [hphase] at h
        cases tailSeen with
        | true => exact absurd rfl h.2.2.2.ne_nil
        | false => exact ⟨hwaits rfl rfl, fun _ _ hforward => by cases hforward⟩

theorem Step.length_sentTo (step : Step) : (step.sentTo .register).length +
    (step.sentTo .bypass).length = step.moved.toList.length := by
  unfold sentTo
  rcases step.moved with _ | ⟨_ | _, f⟩ <;> rfl

end Demux

namespace DebugModule

/-- The places that the flits in a module have to pass, and the work of its
engine. -/
def work (m : DebugModule ModuleBackend) : Work where
  ahead := 3 * m.input.flits.length + 2 * m.demux.held.length + m.toEngine.slot.toList.length +
    m.toInbox.slot.toList.length
  behind := m.engine.work + 3 * m.fromEngine.slot.toList.length + 3 * m.outbox.flits.length

/-- Nothing in the module can move. -/
structure Rests (m : DebugModule ModuleBackend) : Prop where
  input : m.input.peek = none
  demux : m.demux.phase = .header []
  toEngine : m.toEngine.slot = none
  toInbox : m.toInbox.slot = none
  engine : m.engine.phase = .idle
  fromEngine : m.fromEngine.slot = none
  outbox : m.outbox.flits = []
  arbiter : m.arbiter.granted = none

variable {u : RegisterUnit} {m : DebugModule ModuleBackend} {h : ModuleHistory}

/-! ## The work of the parts -/

/-- The arbiter lets work leave the module, or it has nothing to let through. -/
theorem stepArbiter_work (m : DebugModule ModuleBackend) (ready : Bool) :
    (m.stepArbiter ready).1.work.ahead = m.work.ahead ∧
    (m.stepArbiter ready).1.work.behind +
      3 * (Engine.moved (m.stepArbiter ready).2 ready).length = m.work.behind ∧
    (ready = true → Engine.moved (m.stepArbiter ready).2 ready = [] →
      (m.stepArbiter ready).1 = m ∧ ∀ i, m.arbiter.granted = none ∨ m.arbiter.granted = some i →
        Arbiter.headOf [m.fromEngine.slot, m.outbox.peek] i = none) := by
  rcases m.stepArbiter_cases ready with
    ⟨hstep, hnone⟩ | ⟨arbiter, i, f, -, -, ⟨rfl, hslot, hstep⟩ | ⟨rfl, hpeek, hstep⟩⟩
  · rw [hstep]
    refine ⟨rfl, ?_, fun _ _ => ⟨rfl, hnone⟩⟩
    cases ready <;> rfl
  · rw [hstep]
    refine ⟨rfl, ?_, fun hready hmoved => ?_⟩
    · cases ready with
      | false => rfl
      | true =>
        show m.engine.work + 3 * 0 + 3 * m.outbox.flits.length + 3 * 1 = m.engine.work +
          3 * m.fromEngine.slot.toList.length + 3 * m.outbox.flits.length
        rw [hslot]
        show _ = m.engine.work + 3 * 1 + 3 * m.outbox.flits.length
        omega
    · rw [hready] at hmoved
      cases hmoved
  · obtain ⟨rest, hrest⟩ := List.head?_eq_some_iff.mp hpeek
    rw [hstep]
    refine ⟨rfl, ?_, fun hready hmoved => ?_⟩
    · cases ready with
      | false => rfl
      | true =>
        show m.engine.work + 3 * m.fromEngine.slot.toList.length +
          3 * m.outbox.flits.tail.length + 3 * 1 = m.engine.work +
          3 * m.fromEngine.slot.toList.length + 3 * m.outbox.flits.length
        rw [hrest, List.tail_cons, List.length_cons]
        omega
    · rw [hready] at hmoved
      cases hmoved

/-- The engine makes the work less, or it waits for a flit or for the link
behind it. -/
theorem Traces.stepEngine_work (t : m.Traces u h) :
    m.stepEngine.work.Less m.work ∨ m.stepEngine.work = m.work ∧
      (m.engine.phase = .idle ∧ m.toEngine.slot = none ∨ m.fromEngine.slot ≠ none) := by
  have hoffer := congrArg List.length
    (m.fromEngine.slot_offer (m.engine.tick m.toEngine.slot m.fromEngine.ready).offered)
  rw [List.length_append] at hoffer
  change _ = _ + (Engine.moved _ _).length at hoffer
  rcases t.engine.tick_work m.toEngine.slot m.fromEngine.ready with
    ⟨hshown, htaken⟩ | ⟨htaken, hless⟩ | ⟨htaken, hmoved, hwork, hwaits⟩
  · refine Or.inl (Or.inl ?_)
    obtain ⟨f, hslot⟩ := Option.isSome_iff_exists.mp hshown
    show 3 * m.input.flits.length + 2 * m.demux.held.length +
      (m.toEngine.popIf
        (m.engine.tick m.toEngine.slot m.fromEngine.ready).taken).slot.toList.length +
      m.toInbox.slot.toList.length < 3 * m.input.flits.length + 2 * m.demux.held.length +
      m.toEngine.slot.toList.length + m.toInbox.slot.toList.length
    rw [htaken, Link.slot_popIf, if_pos rfl, hslot]
    show _ + 0 + _ < _ + 1 + _
    omega
  · refine Or.inl (Or.inr ⟨?_, ?_⟩)
    · simp only [work, DebugModule.stepEngine, htaken]
      rfl
    · simp only [work, DebugModule.stepEngine]
      omega
  · refine Or.inr ⟨?_, hwaits.imp_right fun hsink => ?_⟩
    · rw [hmoved] at hoffer
      simp only [work, DebugModule.stepEngine, htaken, hwork, hoffer]
      rfl
    · intro hnone
      simp [Link.ready, hnone] at hsink

/-- The inbox makes the work less, or it waits for a flit. -/
theorem stepInbox_work (m : DebugModule ModuleBackend) :
    m.stepInbox.work.Less m.work ∨ m.stepInbox.work = m.work ∧ m.toInbox.slot = none := by
  obtain ⟨inbox, dropped, hstep⟩ := m.stepInbox_eq
  rw [hstep]
  cases hslot : m.toInbox.slot with
  | none =>
    refine Or.inr ⟨?_, rfl⟩
    simp only [work, Link.pop, hslot]
  | some f =>
    refine Or.inl (Or.inl ?_)
    simp only [work, Link.pop, hslot]
    show _ + 0 < _ + 1
    omega

/-- The demultiplexer makes the work less.  When both ways are free it can only
wait for a flit, and then it holds nothing. -/
theorem Traces.stepDemux_work (t : m.Traces u h) :
    m.stepDemux.work.Less m.work ∨ m.stepDemux.work = m.work ∧
      ((∀ way, m.wayReady way = true) → m.input.peek = none ∧ m.demux.phase = .header []) := by
  obtain ⟨toEngine, toInbox, hstep, hregister, hbypass⟩ := m.stepDemux_eq
  have hregister := congrArg List.length hregister
  have hbypass := congrArg List.length hbypass
  have hsent := (m.demux.tick m.input.peek m.wayReady).length_sentTo
  have hinput := congrArg List.length
    (m.input.flits_popIf (m.demux.tick m.input.peek m.wayReady).taken)
  rw [List.length_append] at hregister hbypass hinput
  rw [hstep]
  rcases t.demux.tick_work m.input.peek m.wayReady with hless | ⟨hheld, hmoved, htaken, hwaits⟩
  · refine Or.inl (Or.inl ?_)
    simp only [work]
    cases htaken : (m.demux.tick m.input.peek m.wayReady).taken with
    | false =>
      rw [htaken] at hless hinput
      simp only [Bool.false_eq_true, if_false, List.length_nil] at hless hinput
      omega
    | true =>
      rw [htaken] at hless hinput
      simp only [if_true] at hless hinput
      omega
  · rw [hmoved] at hsent
    have hnone : (none : Option (Route × Flit)).toList.length = 0 := rfl
    refine Or.inr ⟨?_, fun hready => ?_⟩
    · simp only [work, htaken, hheld]
      rw [show toEngine.slot.toList.length = m.toEngine.slot.toList.length by omega,
        show toInbox.slot.toList.length = m.toInbox.slot.toList.length by omega]
      rfl
    · obtain ⟨hpeek, hhead⟩ := hwaits hready
      have hopen : Flit.openRun h.crossed = [] := (t.input.unmarked_of_peek_none hpeek).1
      have hcarries := t.demux
      unfold Demux.Carries at hcarries
      refine ⟨hpeek, ?_⟩
      split at hcarries
      · rename_i held hphase
        rw [hphase, hcarries.1, hopen]
      · rename_i route pending tailSeen hphase
        cases tailSeen with
        | true => exact absurd hphase (hhead route pending)
        | false =>
          have hroute := hcarries.2.2.1
          rw [hopen] at hroute
          cases hroute

/-! ## The work of a module -/

variable {depth : Nat} {received sent : List Flit}

/-- Only the demultiplexer takes flits out of the input. -/
theorem tick_input (m : DebugModule ModuleBackend) (ready : Bool) :
    ∃ taken, (m.tick ready).1.input = m.input.popIf taken := by
  obtain ⟨toEngine, toInbox, hdemux, -, -⟩ :=
    (m.stepArbiter ready).1.stepEngine.stepInbox.stepDemux_eq
  obtain ⟨inbox, dropped, hinbox⟩ := (m.stepArbiter ready).1.stepEngine.stepInbox_eq
  have hinput : (m.stepArbiter ready).1.stepEngine.stepInbox.input = m.input := by
    rw [hinbox]
    rfl
  exact ⟨_, (congrArg input hdemux).trans (congrArg (Buffer.popIf · _) hinput)⟩

/-- The grant of a module cannot block it.  Who holds the arbiter has begun a
packet, and the rest of it is at the arbiter: the engine queues whole answers, and
the outbox whole events. -/
theorem Traces.rests (t : m.Traces u h)
    (hheads : ∀ i, m.arbiter.granted = none ∨ m.arbiter.granted = some i →
      Arbiter.headOf [m.fromEngine.slot, m.outbox.peek] i = none)
    (hengine : m.engine.phase = .idle ∧ m.toEngine.slot = none ∨ m.fromEngine.slot ≠ none)
    (htoInbox : m.toInbox.slot = none)
    (hwaits : m.toEngine.slot = none → m.input.peek = none ∧ m.demux.phase = .header []) :
    m.Rests := by
  have houtbox : m.outbox.peek = none → m.outbox.flits = [] := List.head?_eq_none_iff.mp
  have hgranted : m.arbiter.granted = none := by
    cases hgranted : m.arbiter.granted with
    | none => rfl
    | some i =>
      exfalso
      have hnone := hheads i (Or.inr hgranted)
      have howner : h.outgoing.owner = some i := by
        refine (t.arbiter.shown i hgranted).resolve_right ?_
        simp [hnone]
      have hopen := t.arbiter.sound.openRun_share_ne_nil howner
      obtain rfl | rfl : i = 0 ∨ i = 1 := by
        have hlt : i < 2 := t.arbiter.within i howner
        omega
      · have hslot : m.fromEngine.slot = none := hnone
        have hidle : m.engine.phase = .idle :=
          (hengine.resolve_right fun hne => hne hslot).1
        obtain ⟨done, hserving⟩ := t.engine
        have hanswered := hserving.answered
        rw [hserving.writer_nil (by simp [hidle]), t.answers, hslot, List.append_nil,
          Option.toList_none, List.append_nil] at hanswered
        rw [hanswered, Packet.openRun_stream] at hopen
        exact hopen rfl
      · have hevents := t.events
        rw [houtbox hnone, List.append_nil] at hevents
        rw [← hevents, Packet.openRun_stream] at hopen
        exact hopen rfl
  have hslot : m.fromEngine.slot = none := hheads 0 (Or.inl hgranted)
  have hpeek : m.outbox.peek = none := hheads 1 (Or.inl hgranted)
  obtain ⟨hidle, htoEngine⟩ := hengine.resolve_right fun hne => hne hslot
  obtain ⟨hinput, hdemux⟩ := hwaits htoEngine
  exact ⟨hinput, hdemux, htoEngine, htoInbox, hidle, hslot, houtbox hpeek, hgranted⟩

/-- A step makes the work of a module less, what it sends included, or the
module rests or its output is not ready. -/
theorem Flows.tick_work (hflows : m.Flows u depth received sent) (ready : Bool) :
    (Work.mk (m.tick ready).1.work.ahead ((m.tick ready).1.work.behind +
      2 * (Engine.moved (m.tick ready).2 ready).length)).Less m.work ∨
    ((m.tick ready).1.work = m.work ∧ Engine.moved (m.tick ready).2 ready = [] ∧
      (ready = true → m.Rests)) := by
  obtain ⟨h, t, -, -, -⟩ := hflows
  obtain ⟨outgoing, t₁, -⟩ := t.stepArbiter ready
  have t₃ := t₁.stepEngine.stepInbox
  obtain ⟨hahead, hbehind, hnothing⟩ := m.stepArbiter_work ready
  have hengine := t₁.stepEngine_work
  have hinbox := (m.stepArbiter ready).1.stepEngine.stepInbox_work
  have hdemux := t₃.stepDemux_work
  have htick : (m.tick ready).1 = (m.stepArbiter ready).1.stepEngine.stepInbox.stepDemux := rfl
  have hoffered : (m.tick ready).2 = (m.stepArbiter ready).2 := rfl
  have hleft : ∀ w : Work, w.Less (m.stepArbiter ready).1.work →
      (Work.mk w.ahead (w.behind + 2 * (Engine.moved (m.stepArbiter ready).2 ready).length)).Less
        m.work := by
    intro w hless
    unfold Work.Less at hless ⊢
    simp only
    omega
  have hinboxMost : Work.AtMost _ _ := hinbox.imp_right And.left
  have hdemuxMost : Work.AtMost _ _ := hdemux.imp_right And.left
  rw [htick, hoffered]
  rcases hengine with hless | ⟨hengine, hidle⟩
  · exact Or.inl (hleft _ ((hdemuxMost.trans hinboxMost).trans_less hless))
  rcases hinbox with hless | ⟨hinbox, hlink⟩
  · rw [hengine] at hless
    exact Or.inl (hleft _ (hdemuxMost.trans_less hless))
  rcases hdemux with hless | ⟨hdemux, hwaits⟩
  · rw [hinbox, hengine] at hless
    exact Or.inl (hleft _ hless)
  rw [hdemux, hinbox, hengine]
  cases hmoved : Engine.moved (m.stepArbiter ready).2 ready with
  | cons f rest =>
    refine Or.inl (Or.inr ⟨hahead, ?_⟩)
    rw [hmoved] at hbehind
    simp only [List.length_cons] at hbehind ⊢
    omega
  | nil =>
    refine Or.inr ⟨?_, rfl, fun hready => ?_⟩
    · rw [hmoved] at hbehind
      have hbehind' : (m.stepArbiter ready).1.work.behind = m.work.behind := hbehind
      rw [Work.ext_iff]
      exact ⟨hahead, hbehind'⟩
    · obtain ⟨hsame, hheads⟩ := hnothing hready hmoved
      rw [hsame] at hidle hlink hwaits
      refine t.rests hheads hidle hlink fun hlink' => ?_
      obtain ⟨inbox, dropped, hstep⟩ := m.stepEngine.stepInbox_eq
      rw [hstep] at hwaits
      refine hwaits fun way => ?_
      cases way with
      | bypass => rfl
      | register =>
        show (m.toEngine.popIf _).slot.isNone = true
        rw [Link.slot_popIf, hlink', ite_self]
        rfl

/-- A module that rests has sent whole packets and holds the beginning of a
packet at its input, or nothing. -/
theorem Flows.of_rests (hflows : m.Flows u depth received sent) (hrests : m.Rests) :
    Flit.openRun sent = [] ∧ m.input.depth = depth ∧ m.input.flits = Flit.openRun received ∧
      (Flit.openRun received = [] → m.isIdle = true) := by
  obtain ⟨h, t, rfl, rfl, rfl⟩ := hflows
  obtain ⟨hcrossed, hunmarked⟩ := t.input.unmarked_of_peek_none hrests.input
  have hflits : m.input.flits = Flit.openRun h.received := by
    rw [t.received, Flit.openRun_append_of_closed hcrossed, Flit.openRun_of_unmarked hunmarked]
  have hsent : ∀ way, Flit.openRun (h.sentTo m way) = [] := by
    intro way
    have hcarries := t.demux
    unfold Demux.Carries at hcarries
    rw [hrests.demux] at hcarries
    rw [← hcarries.2.2 way, Demux.routed_of_short (by rw [hcrossed]; decide)]
    exact Flit.openRun_flatten fun r hr => Demux.isRun_of_mem_routedRuns hr
  refine ⟨?_, t.depth, hflits, fun hopen => ?_⟩
  · have howner : h.outgoing.owner = none := by
      cases howner : h.outgoing.owner with
      | none => rfl
      | some i => exact absurd (t.arbiter.kept i howner) (by simp [hrests.arbiter])
    rw [Passage.whole, t.arbiter.sound.owned.mp howner, List.append_nil]
    refine Flit.openRun_flatten fun r hr => ?_
    obtain ⟨x, hx, rfl⟩ := List.mem_map.mp hr
    exact t.arbiter.sound.runs x hx
  · have hreader : m.engine.reader.flits = [] := by
      obtain ⟨done, hserving⟩ := t.engine
      have hserved := hsent .register
      rw [ModuleHistory.sentTo, hrests.toEngine, Option.toList_none, List.append_nil] at hserved
      rw [hserving.reader, hserved]
    have hinbox : m.inboxReader.flits = [] := by
      have hbypassed := hsent .bypass
      rw [ModuleHistory.sentTo, hrests.toInbox, Option.toList_none, List.append_nil] at hbypassed
      rw [t.inbox, hbypassed]
    exact isIdle_iff.mpr ⟨hflits.trans hopen, hrests.demux, hrests.toEngine, hrests.toInbox,
      ⟨hrests.engine, hreader⟩, hrests.fromEngine, hrests.outbox, hinbox⟩

end DebugModule

end ProbeNet
