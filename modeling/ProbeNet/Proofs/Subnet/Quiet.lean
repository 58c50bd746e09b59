import Mathlib.Logic.Function.Iterate
import ProbeNet.Proofs.Subnet.Progress

/-!
# A subnet at rest stays at rest

The test for idleness looks at some of the places in a subnet, not at all of them.  In the
states that a run reaches the others are empty when those are: `Traces.vacant`.  Time then
passes without a trace, but for the steps that are counted and the readers that count how
long they have waited.

* `DebugModule.Vacant` and `Subnet.Vacant` say that nothing is anywhere.
* `DebugModule.waited` is what a step makes of a module in which nothing is.
* `DebugModule.timeless` and `Subnet.timeless` leave out what only time changes.
-/

namespace ProbeNet

open Register

/-! ## Modules -/

namespace PacketReader

/-- The reader without its count of the steps in which nothing came. -/
def timeless (r : PacketReader) : PacketReader := { r with idleSteps := 0 }

/-- When nothing comes, a reader counts the step. -/
theorem timeless_tick_none (r : PacketReader) : (r.tick none).1.timeless = r.timeless := by
  simp only [tick]
  split <;> rfl

theorem flits_tick_none (r : PacketReader) : (r.tick none).1.flits = r.flits := by
  simp only [tick]
  split <;> rfl

/-- When nothing comes, no packet is read. -/
theorem tick_none_outcome (r : PacketReader) :
    (r.tick none).2 = .pending ∨ (r.tick none).2 = .timedOut := by
  simp only [tick]
  split
  · exact Or.inr rfl
  · exact Or.inl rfl

end PacketReader

namespace DebugModule

/-- Nothing is under way in the module: nothing can move, and no part holds anything back. -/
structure Vacant (m : DebugModule ModuleBackend) : Prop extends Rests m where
  buffered : m.input.flits = []
  reader : m.engine.reader.flits = []
  writer : m.engine.writer.flits = []
  inboxReader : m.inboxReader.flits = []

/-- The module after a step in which nothing came. -/
def waited (m : DebugModule ModuleBackend) : DebugModule ModuleBackend :=
  { m with
    engine := { m.engine with reader := (m.engine.reader.tick none).1 }
    inboxReader := (m.inboxReader.tick none).1 }

/-- The module without what its readers have counted while they waited. -/
def timeless (m : DebugModule ModuleBackend) : DebugModule ModuleBackend :=
  { m with
    engine := { m.engine with reader := m.engine.reader.timeless }
    inboxReader := m.inboxReader.timeless }

theorem timeless_waited (m : DebugModule ModuleBackend) : m.waited.timeless = m.timeless := by
  simp only [timeless, waited, PacketReader.timeless_tick_none]

variable {u : RegisterUnit} {m : DebugModule ModuleBackend} {h : ModuleHistory}

/-- An idle module has sent its answers, and its arbiter waits for neither source. -/
theorem Traces.vacant (t : m.Traces u h) (hidle : m.isIdle = true) : m.Vacant := by
  obtain ⟨hinput, hdemux, htoEngine, htoInbox, ⟨hphase, hreader⟩, hfromEngine, houtbox, hinbox⟩ :=
    isIdle_iff.mp hidle
  have hpeek : m.input.peek = none := by simp [Buffer.peek, hinput]
  have hheads : ∀ i, Arbiter.headOf [m.fromEngine.slot, m.outbox.peek] i = none := by
    intro i
    rcases i with _ | _ | i <;> simp [Arbiter.headOf, PacketWriter.peek, hfromEngine, houtbox]
  have hrests := t.rests (fun i _ => hheads i) (Or.inl ⟨hphase, htoEngine⟩) htoInbox
    fun _ => ⟨hpeek, hdemux⟩
  obtain ⟨done, hserving⟩ := t.engine
  exact ⟨hrests, hinput, hreader, hserving.writer_nil (by simp [hphase]), hinbox⟩

theorem Vacant.isIdle (v : m.Vacant) : m.isIdle = true :=
  isIdle_iff.mpr ⟨v.buffered, v.demux, v.toEngine, v.toInbox, ⟨v.engine, v.reader⟩, v.fromEngine,
    v.outbox, v.inboxReader⟩

theorem Vacant.waited (v : m.Vacant) : m.waited.Vacant where
  toRests := { v with }
  buffered := v.buffered
  reader := (m.engine.reader.flits_tick_none).trans v.reader
  writer := v.writer
  inboxReader := (m.inboxReader.flits_tick_none).trans v.inboxReader

theorem stepEngine_of_empty (hphase : m.engine.phase = .idle) (hslot : m.toEngine.slot = none) :
    m.stepEngine =
      { m with engine := { m.engine with reader := (m.engine.reader.tick none).1 } } := by
  have hidle : m.engine.stepIdle none =
      { m.engine with reader := (m.engine.reader.tick none).1 } := by
    rcases m.engine.reader.tick_none_outcome with hout | hout <;>
      simp only [Engine.stepIdle, hout]
  simp only [stepEngine, Engine.tick, hphase, hslot, hidle]
  rfl

theorem stepInbox_of_empty (hslot : m.toInbox.slot = none) :
    m.stepInbox = { m with inboxReader := (m.inboxReader.tick none).1 } := by
  have hpop : m.toInbox.pop = m.toInbox := by rw [Link.pop, ← hslot]
  rcases m.inboxReader.tick_none_outcome with hout | hout <;>
    simp only [stepInbox, hslot, hout, hpop]

theorem stepDemux_of_empty (hphase : m.demux.phase = .header []) (hpeek : m.input.peek = none) :
    m.stepDemux = m := by
  simp only [stepDemux, Demux.tick, hphase, hpeek]
  rfl

/-- In a module in which nothing is, a step lets time pass. -/
theorem Vacant.tick (v : m.Vacant) (ready : Bool) : m.tick ready = (m.waited, none) := by
  have harbiter : m.stepArbiter ready = (m, none) := by
    rcases m.stepArbiter_cases ready with
      ⟨hstep, -⟩ | ⟨_, _, f, -, -, ⟨-, hslot, -⟩ | ⟨-, hpeek, -⟩⟩
    · exact hstep
    · rw [v.fromEngine] at hslot
      cases hslot
    · rw [PacketWriter.peek, v.outbox] at hpeek
      cases hpeek
  have hinbox : m.stepEngine.stepInbox = m.waited := by
    rw [stepEngine_of_empty v.engine v.toEngine]
    exact stepInbox_of_empty v.toInbox
  have hdemux : m.waited.stepDemux = m.waited := stepDemux_of_empty v.demux v.input
  rw [DebugModule.tick, harbiter]
  show (m.stepEngine.stepInbox.stepDemux, none) = _
  rw [hinbox, hdemux]

end DebugModule

/-! ## Subnets -/

namespace Subnet

/-- Nothing is under way in the subnet. -/
structure Vacant (s : Subnet) : Prop where
  ingress : s.ingress.flits = []
  egress : s.egress.flits = []
  staged : s.staged = []
  phase : s.phase = .collect
  arbiter : s.arbiter.granted = none
  links : ∀ n ∈ s.nodes, n.out.slot = none
  modules : ∀ n ∈ s.nodes, n.module.Vacant

/-- The subnet after a step in which nothing came. -/
def waited (s : Subnet) : Subnet :=
  { s with
    nodes := s.nodes.map fun n => { n with module := n.module.waited }
    counts.steps := s.counts.steps + 1 }

/-- The subnet without what it has counted while time passed. -/
def timeless (s : Subnet) : Subnet :=
  { s with
    nodes := s.nodes.map fun n => { n with module := n.module.timeless }
    counts.steps := 0 }

theorem timeless_waited (s : Subnet) : s.waited.timeless = s.timeless := by
  simp only [timeless, waited, List.map_map, Function.comp_def, DebugModule.timeless_waited]

variable {units : List RegisterUnit} {limit : Nat} {s : Subnet}
  {accepted popped taken : List Flit} {merged : Passage}

/-- In a subnet that is idle nothing is under way, and no module holds the egress. -/
theorem Traces.vacant (t : s.Traces units limit accepted popped taken merged)
    (hidle : s.isIdle = true) : s.Vacant := by
  obtain ⟨hingress, hegress, hstaged, hphase, hlinks, hmodules⟩ := isIdle_iff.mp hidle
  have hvacant : ∀ n ∈ s.nodes, n.module.Vacant := by
    intro n hmem
    obtain ⟨i, hi, rfl⟩ := List.mem_iff_getElem.mp hmem
    obtain ⟨u, received, ⟨depth, -, h, htraces, -⟩, -⟩ := t.node (List.getElem?_eq_getElem hi)
    exact htraces.vacant (hmodules _ hmem)
  refine ⟨hingress, hegress, hstaged, hphase, ?_, hlinks, hvacant⟩
  refine t.granted_eq_none (fun i _ => ?_) fun n hmem _ => (hvacant n hmem).toRests
  rw [headOf_outputs_eq]
  cases hn : s.nodes[i]? with
  | none => rfl
  | some n => exact hlinks n (List.mem_of_getElem? hn)

theorem Vacant.isIdle (v : s.Vacant) : s.isIdle = true :=
  isIdle_iff.mpr ⟨v.ingress, v.egress, v.staged, v.phase, v.links,
    fun n hn => (v.modules n hn).isIdle⟩

theorem Vacant.peekEgress (v : s.Vacant) : s.peekEgress = none := by
  simp [Subnet.peekEgress, Buffer.peek, v.egress]

theorem Vacant.waited (v : s.Vacant) : s.waited.Vacant := by
  refine ⟨v.ingress, v.egress, v.staged, v.phase, v.arbiter, ?_, ?_⟩
  · intro _ hmem
    obtain ⟨n, hn, rfl⟩ := List.mem_map.mp hmem
    exact v.links n hn
  · intro _ hmem
    obtain ⟨n, hn, rfl⟩ := List.mem_map.mp hmem
    exact (v.modules n hn).waited

theorem stepEgress_of_empty (hlinks : ∀ n ∈ s.nodes, n.out.slot = none) : s.stepEgress = s := by
  rcases s.stepEgress_cases with ⟨hstep, -⟩ | ⟨_, i, f, n, hn, hslot, -⟩
  · exact hstep
  · rw [hlinks n (List.mem_of_getElem? hn)] at hslot
    cases hslot

/-- In a subnet in which nothing is, a step lets time pass. -/
theorem Vacant.step (v : s.Vacant) : s.step = s.waited := by
  have hegress : ({ s with counts.steps := s.counts.steps + 1 } : Subnet).stepEgress =
      { s with counts.steps := s.counts.steps + 1 } := stepEgress_of_empty v.links
  have hnodes : s.nodes.map stepNode =
      s.nodes.map fun n => { n with module := n.module.waited } := by
    refine List.map_congr_left fun n hn => ?_
    rw [stepNode, (v.modules n hn).tick]
    rfl
  have hpeek : s.ingress.peek = none := by simp [Buffer.peek, v.ingress]
  have hrouter : s.waited.stepRouter = s.waited := by
    simp only [stepRouter, Subnet.waited, v.phase, hpeek]
  unfold Subnet.step
  rw [hegress]
  show ({ s with
    nodes := s.nodes.map stepNode
    counts.steps := s.counts.steps + 1 } : Subnet).stepRouter = _
  rw [hnodes]
  exact hrouter

/-- And so do any number of steps. -/
theorem Vacant.steps (v : s.Vacant) (n : Nat) :
    (Subnet.step^[n] s).Vacant ∧ (Subnet.step^[n] s).timeless = s.timeless ∧
      (Subnet.step^[n] s).counts.steps = s.counts.steps + n := by
  induction n with
  | zero => exact ⟨v, rfl, rfl⟩
  | succ n ih =>
    obtain ⟨hvacant, htimeless, hcount⟩ := ih
    rw [Function.iterate_succ_apply', hvacant.step]
    refine ⟨hvacant.waited, (timeless_waited _).trans htimeless, ?_⟩
    show (Subnet.step^[n] s).counts.steps + 1 = _
    rw [hcount]
    rfl

end Subnet

/-- Whoever waits for a subnet may sleep while it is idle.  In every state that a run reaches and
that passes for idle, nothing is anywhere in the subnet: no flit, no request, no answer, and no
grant at either level.  However many steps follow, the subnet stays like this and shows no flit,
and it changes in nothing but the number of its steps and the counts of the readers that wait. -/
theorem idle_subnet_stays_idle {link : LinkSettings} {target : TargetSettings}
    {backends : List MapBackend} {s : Subnet}
    (hs : Subnet.withBackends link target backends = .ok s) (actions : List SubnetAction)
    (hidle : (SubnetRun.ofActions s actions).subnet.isIdle = true) :
    let now := (SubnetRun.ofActions s actions).subnet
    now.Vacant ∧ ∀ n, let later := Subnet.step^[n] now
      later.Vacant ∧ later.isIdle = true ∧ later.peekEgress = none ∧
        later.timeless = now.timeless ∧ later.counts.steps = now.counts.steps + n := by
  intro now
  obtain ⟨taken, merged, t⟩ := SubnetRun.traces hs actions
  have hvacant := t.vacant hidle
  refine ⟨hvacant, fun n => ?_⟩
  obtain ⟨hlater, htimeless, hcount⟩ := hvacant.steps n
  exact ⟨hlater, hlater.isIdle, hlater.peekEgress, htimeless, hcount⟩

/-- A module has answered a request and sent an event, and one packet waits in an inbox. -/
theorem idle_subnet_stays_idle_served :
    ∃ s, Subnet.withBackends {} {} [.ofRange 0x200 0x300, .ofRange 0x200 0x300] = .ok s ∧
      let read : Packet :=
        { dest := 1, src := 0x3ff, kind := .register (.readRequest .w16), payload := [0x200] }
      let note : Packet := { dest := 2, src := 0x3ff, kind := .plain 0, payload := [7] }
      let r := SubnetRun.ofActions s
        (.emit 1 [1, 2] :: (Packet.stream [read, note]).map .push ++
          (List.replicate 40 [.step, .pop]).flatten)
      r.popped ≠ [] ∧ r.subnet.isIdle = true ∧ r.subnet.Vacant ∧
        (Subnet.step^[1000] r.subnet).peekEgress = none := by
  have hs : Subnet.withBackends {} {} [.ofRange 0x200 0x300, .ofRange 0x200 0x300] = .ok _ := rfl
  refine ⟨_, hs, ?_⟩
  intro read note r
  have hidle : r.subnet.isIdle = true := by decide +kernel
  obtain ⟨hvacant, hlater⟩ := idle_subnet_stays_idle hs _ hidle
  obtain ⟨-, -, hquiet, -⟩ := hlater 1000
  exact ⟨by decide +kernel, hidle, hvacant, hquiet⟩

end ProbeNet
