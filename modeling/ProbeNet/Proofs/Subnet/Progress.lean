import ProbeNet.Proofs.Module.Progress
import ProbeNet.Proofs.Subnet.Flow

/-!
# A subnet comes to rest

When the host presents no more flits and takes what the subnet shows, the subnet
does what is left to do and becomes idle, provided that the last packet from the
host is complete.  Each round makes `Subnet.work` less unless the subnet is idle
already: `Traces.round_work` goes through the places where a round could be stuck
and finds that none of them holds a flit.
-/

namespace ProbeNet

open Register

/-- The work of a module and its output link. -/
def Node.work (n : Node) : Work where
  ahead := n.module.work.ahead
  behind := n.module.work.behind + 2 * n.out.slot.toList.length

namespace Subnet

/-! ## Rounds -/

/-- A step of the subnet, and the host takes the flit that is shown. -/
def round (s : Subnet) : Subnet := s.step.popEgress

/-- A number of rounds. -/
def rounds : Nat → Subnet → Subnet
  | 0, s => s
  | n + 1, s => rounds n s.round

/-! ## The work of a subnet -/

/-- The sum of a quantity over the modules. -/
def total (g : Node → Nat) : List Node → Nat
  | [] => 0
  | n :: ns => g n + total g ns

/-- The places that the flits in a subnet have to pass, and the work of its
engines. -/
def work (s : Subnet) : Work where
  ahead := 5 * s.ingress.flits.length + 4 * s.staged.length + total (fun n => n.work.ahead) s.nodes
  behind := s.egress.flits.length + total (fun n => n.work.behind) s.nodes

theorem total_modify (g : Node → Nat) {ns : List Node} {i : Nat} {n : Node} (k : Node → Node)
    (hn : ns[i]? = some n) : total g (ns.modify i k) + g n = total g ns + g (k n) := by
  induction ns generalizing i with
  | nil => cases hn
  | cons m ns ih =>
    cases i with
    | zero =>
      obtain rfl : m = n := Option.some.inj hn
      show g (k m) + total g ns + g m = g m + total g ns + g (k m)
      omega
    | succ i =>
      have hrest := ih (i := i) hn
      show g m + total g (ns.modify i k) + g n = g m + total g ns + g (k n)
      omega

/-- What makes the work of no module more makes the work of all less, or it
leaves the work of each as it is. -/
theorem total_map {ns : List Node} {k : Node → Node} {P : Node → Prop}
    (h : ∀ n ∈ ns, (k n).work.Less n.work ∨ (k n).work = n.work ∧ P n) :
    (total (fun n => n.work.ahead) (ns.map k) < total (fun n => n.work.ahead) ns ∨
      total (fun n => n.work.ahead) (ns.map k) = total (fun n => n.work.ahead) ns ∧
        total (fun n => n.work.behind) (ns.map k) < total (fun n => n.work.behind) ns) ∨
    (total (fun n => n.work.ahead) (ns.map k) = total (fun n => n.work.ahead) ns ∧
      total (fun n => n.work.behind) (ns.map k) = total (fun n => n.work.behind) ns ∧
        ∀ n ∈ ns, P n) := by
  induction ns with
  | nil => exact Or.inr ⟨rfl, rfl, by simp⟩
  | cons n ns ih =>
    have hrest := ih fun m hm => h m (List.mem_cons_of_mem n hm)
    simp only [List.map_cons, total]
    rcases h n List.mem_cons_self with hless | ⟨hsame, hn⟩
    · unfold Work.Less at hless
      left
      omega
    · rw [hsame]
      rcases hrest with hless | ⟨hahead, hbehind, hall⟩
      · left
        omega
      · refine Or.inr ⟨by omega, by omega, fun m hm => ?_⟩
        rcases List.mem_cons.mp hm with rfl | hm
        · exact hn
        · exact hall m hm

variable {units : List RegisterUnit} {limit : Nat} {s : Subnet}
  {accepted popped taken : List Flit} {merged : Passage}

/-- The arbiter makes the work less, or the egress is full, or nothing is at a
module that it would listen to. -/
theorem stepEgress_work (s : Subnet) :
    s.stepEgress.work.Less s.work ∨ s.stepEgress.work = s.work ∧ s.stepEgress.egress = s.egress ∧
      (s.egress.ready = true → s.stepEgress = s ∧
        ∀ i, s.arbiter.granted = none ∨ s.arbiter.granted = some i →
          Arbiter.headOf s.outputs i = none) := by
  rcases s.stepEgress_cases with ⟨hstep, hnone⟩ | ⟨arbiter, i, f, n, hn, hslot, -, -, hstep⟩
  · exact Or.inr ⟨by rw [hstep], by rw [hstep], fun _ => ⟨hstep, hnone⟩⟩
  · rw [hstep]
    cases hready : s.egress.ready with
    | false => exact Or.inr ⟨rfl, rfl, fun hyes => by cases hyes⟩
    | true =>
      have hahead := total_modify (fun n => n.work.ahead)
        (fun n => { n with out := n.out.pop }) hn
      have hbehind := total_modify (fun n => n.work.behind)
        (fun n => { n with out := n.out.pop }) hn
      simp only [Node.work, hslot, Link.pop, Option.toList_some, Option.toList_none,
        List.length_cons, List.length_nil] at hahead hbehind
      rw [if_pos rfl]
      refine Or.inl (Or.inr ⟨?_, ?_⟩)
      · simp only [work, Node.work, Link.pop]
        omega
      · simp only [work, Node.work, Link.pop, Buffer.flits_push, hready, if_true,
          List.length_append, List.length_cons, List.length_nil]
        omega

/-- A step of a module and its output link makes their work less, or the module
rests or its output link is busy. -/
theorem stepNode_work {n : Node} {u : RegisterUnit} {received sent : List Flit}
    (h : n.Traces u limit received sent) :
    (stepNode n).work.Less n.work ∨ (stepNode n).work = n.work ∧
      (n.out.slot = none → n.module.Rests) := by
  obtain ⟨depth, -, hflows⟩ := h
  have hout := congrArg List.length (n.out.slot_offer (n.module.tick n.out.ready).2)
  rw [List.length_append] at hout
  change _ = _ + (Engine.moved _ _).length at hout
  rcases hflows.tick_work n.out.ready with hless | ⟨hsame, hmoved, hrests⟩
  · refine Or.inl ?_
    unfold Work.Less at hless ⊢
    simp only [Node.work, stepNode] at hless ⊢
    omega
  · refine Or.inr ⟨?_, fun hslot => hrests ?_⟩
    · rw [hmoved] at hout
      simp only [Node.work, stepNode, hsame, hout]
      rfl
    · rw [Link.ready, hslot]
      rfl

theorem Traces.node (t : s.Traces units limit accepted popped taken merged) {i : Nat} {n : Node}
    (hn : s.nodes[i]? = some n) :
    ∃ u received, n.Traces u s.maxPacketLen received (merged.share i) ∧
      received ++ s.pendingFor i = deliveries s.maxPacketLen i taken := by
  have hi : i < units.length := t.count ▸ (List.getElem?_eq_some_iff.mp hn).1
  obtain ⟨received, htraces, hreceived⟩ := t.nodes i n _ hn (List.getElem?_eq_getElem hi)
  exact ⟨_, received, htraces, hreceived⟩

/-- The steps of the modules make the work less, or each module rests or its
output link is busy. -/
theorem Traces.stepNodes_work (t : s.Traces units limit accepted popped taken merged) :
    ({ s with nodes := s.nodes.map stepNode } : Subnet).work.Less s.work ∨
    ({ s with nodes := s.nodes.map stepNode } : Subnet).work = s.work ∧
      ∀ n ∈ s.nodes, n.out.slot = none → n.module.Rests := by
  have hnodes : ∀ n ∈ s.nodes, (stepNode n).work.Less n.work ∨ (stepNode n).work = n.work ∧
      (n.out.slot = none → n.module.Rests) := by
    intro n hmem
    obtain ⟨i, hi, rfl⟩ := List.mem_iff_getElem.mp hmem
    obtain ⟨u, received, htraces, -⟩ := t.node (List.getElem?_eq_getElem hi)
    exact stepNode_work htraces
  rcases total_map hnodes with hless | ⟨hahead, hbehind, hall⟩
  · refine Or.inl ?_
    unfold Work.Less
    simp only [work]
    omega
  · refine Or.inr ⟨?_, hall⟩
    simp only [work, hahead, hbehind]

theorem Traces.ingress_eq_nil (t : s.Traces units limit accepted popped taken merged)
    (hpeek : s.ingress.peek = none) : s.ingress.flits = [] := by
  rw [Buffer.peek_of_streaming t.ingressAdmission] at hpeek
  exact List.head?_eq_none_iff.mp hpeek

/-- Handing a flit over makes the work less, if the module has room for it. -/
theorem Traces.stepForward_work (t : s.Traces units limit accepted popped taken merged) {i : Nat}
    (hphase : s.phase = .forward i) :
    (s.stepForward i).work.Less s.work ∨ s.stepForward i = s ∧
      ∀ n, s.nodes[i]? = some n → n.module.input.ready = false := by
  obtain ⟨hi, -, hrun⟩ := t.router.of_forward hphase
  have hn := List.getElem?_eq_getElem hi
  obtain ⟨f, rest, hstaged⟩ := List.exists_cons_of_ne_nil hrun.ne_nil
  rcases stepForward_cases hn hstaged with ⟨hfull, hstep⟩ | ⟨hready, hstep⟩
  · refine Or.inr ⟨hstep, fun n hnode => ?_⟩
    rw [← Option.some.inj (hn.symm.trans hnode)]
    exact hfull
  · have htotal := total_modify (fun n => n.work.ahead)
      (fun n => { n with module := { n.module with input := n.module.input.push f } }) hn
    rw [hstep]
    refine Or.inl (Or.inl ?_)
    simp only [Node.work, DebugModule.work, Buffer.flits_push, hready, if_true,
      List.length_append, List.length_cons, List.length_nil] at htotal
    simp only [work, Node.work, DebugModule.work, Subnet.modifyModule, hstaged, List.length_cons]
    omega

/-- The router makes the work less, or it waits for the ingress or for a module
to have room. -/
theorem Traces.stepRouter_work (t : s.Traces units limit accepted popped taken merged) :
    s.stepRouter.work.Less s.work ∨ s.stepRouter = s ∧
      ((∀ i, s.phase ≠ .forward i) → s.ingress.flits = []) ∧
      ∀ i n, s.phase = .forward i → s.nodes[i]? = some n → n.module.input.ready = false := by
  unfold Subnet.stepRouter
  split
  · rename_i hphase
    split
    · rename_i hpeek
      refine Or.inr ⟨rfl, fun _ => t.ingress_eq_nil hpeek, fun i n hforward => ?_⟩
      rw [hphase] at hforward
      cases hforward
    · rename_i f hpeek
      obtain ⟨hnodes, hingress, -, -, hstaged⟩ :=
        ({ s with ingress := s.ingress.pop } : Subnet).stepCollect_frame f
      have hpop := congrArg List.length (Buffer.flits_of_peek hpeek)
      rw [List.length_cons] at hpop
      refine Or.inl (Or.inl ?_)
      simp only [work, hnodes, hingress]
      simp only at hstaged
      omega
  · rename_i i hphase
    rcases t.stepForward_work hphase with hless | ⟨hsame, hfull⟩
    · exact Or.inl hless
    · refine Or.inr ⟨hsame, fun hnot => absurd hphase (hnot i), fun j n hforward => ?_⟩
      obtain rfl : i = j := RouterPhase.forward.inj (hphase.symm.trans hforward)
      exact hfull n
  · rename_i hphase
    split
    · rename_i hpeek
      refine Or.inr ⟨rfl, fun _ => t.ingress_eq_nil hpeek, fun i n hforward => ?_⟩
      rw [hphase] at hforward
      cases hforward
    · rename_i f hpeek
      have hpop := congrArg List.length (Buffer.flits_of_peek hpeek)
      rw [List.length_cons] at hpop
      refine Or.inl (Or.inl ?_)
      simp only [work]
      omega

/-- The host makes the work less when a flit is shown. -/
theorem Traces.popEgress_work (t : s.Traces units limit accepted popped taken merged) :
    s.popEgress.work.Less s.work ∨ s.popEgress = s ∧ s.egress.flits = [] := by
  cases hpeek : s.egress.peek with
  | none =>
    refine Or.inr ⟨?_, ?_⟩
    · rw [Subnet.popEgress, Buffer.pop_of_peek_none hpeek]
    · rw [Buffer.peek_of_streaming t.egressAdmission] at hpeek
      exact List.head?_eq_none_iff.mp hpeek
  | some f =>
    have hpop := congrArg List.length (Buffer.flits_of_peek hpeek)
    rw [List.length_cons] at hpop
    refine Or.inl (Or.inr ⟨rfl, ?_⟩)
    simp only [work, Subnet.popEgress]
    omega

/-! ## No round is stuck -/

/-- No module holds the egress without a flit for it: what has left a module that
rests are whole packets. -/
theorem Traces.granted_eq_none (t : s.Traces units limit accepted popped taken merged)
    (hheads : ∀ i, s.arbiter.granted = none ∨ s.arbiter.granted = some i →
      Arbiter.headOf s.outputs i = none)
    (hrests : ∀ n ∈ s.nodes, n.out.slot = none → n.module.Rests) : s.arbiter.granted = none := by
  cases hgranted : s.arbiter.granted with
  | none => rfl
  | some i =>
    exfalso
    have hnone := hheads i (Or.inr hgranted)
    have howner : merged.owner = some i := by
      refine (t.arbiter.shown i hgranted).resolve_right ?_
      simp [hnone]
    have hi : i < s.nodes.length := by
      have hlt := t.arbiter.within i howner
      rwa [outputs, List.length_map] at hlt
    have hn := List.getElem?_eq_getElem hi
    have hslot : s.nodes[i].out.slot = none := by
      rw [headOf_outputs_eq, hn] at hnone
      exact hnone
    obtain ⟨u, received, ⟨depth, -, hflows⟩, -⟩ := t.node hn
    have hopen := (hflows.of_rests (hrests _ (List.getElem_mem hi) hslot)).1
    rw [hslot, Option.toList_none, List.append_nil] at hopen
    exact t.arbiter.sound.openRun_share_ne_nil howner hopen

/-- A module that rests has room for what is staged: it holds the beginning of
the same packet, which the router found short enough. -/
theorem Traces.input_ready (t : s.Traces units limit accepted popped taken merged) {i : Nat}
    {n : Node} (hphase : s.phase = .forward i) (hn : s.nodes[i]? = some n)
    (hrests : n.module.Rests) : n.module.input.ready = true := by
  obtain ⟨-, -, hrun⟩ := t.router.of_forward hphase
  obtain ⟨u, received, ⟨depth, hdepth, hflows⟩, hreceived⟩ := t.node hn
  obtain ⟨-, hroom, hflits, -⟩ := hflows.of_rests hrests
  have hpacket : Flit.openRun received ++ s.staged ∈
      (Flit.runs taken).filter (goesTo s.maxPacketLen i) := by
    rw [← runs_deliveries, ← hreceived, pendingFor, if_pos hphase]
    exact hrun.mem_runs_append received
  have hshort : (Flit.openRun received ++ s.staged).length ≤ s.maxPacketLen := by
    have hgoes := (List.mem_filter.mp hpacket).2
    unfold goesTo at hgoes
    simp only [Bool.and_eq_true, decide_eq_true_eq] at hgoes
    exact hgoes.1
  have hstaged := List.length_pos_iff.mpr hrun.ne_nil
  rw [List.length_append] at hshort
  unfold Buffer.ready Buffer.isFull Buffer.size
  rw [hflits, hroom, Bool.not_eq_true', decide_eq_false_iff_not]
  omega

/-- A subnet is idle when everything that it took from the host is a matter of
the past. -/
theorem Traces.isIdle_of_rests (t : s.Traces units limit accepted popped taken merged)
    (hopen : Flit.openRun accepted = []) (hingress : s.ingress.flits = [])
    (hegress : s.egress.flits = []) (hphase : ∀ i, s.phase ≠ .forward i)
    (hout : ∀ n ∈ s.nodes, n.out.slot = none) (hrests : ∀ n ∈ s.nodes, n.module.Rests) :
    s.isIdle = true := by
  have htaken : Flit.openRun taken = [] := by
    rw [t.ingress, hingress, List.append_nil] at hopen
    exact hopen
  have hrouter := t.router
  unfold Routes at hrouter
  obtain ⟨hcollect, hstaged⟩ : s.phase = .collect ∧ s.staged = [] := by
    split at hrouter
    · rename_i hcollect
      exact ⟨hcollect, by rw [hrouter.1, htaken]⟩
    · rename_i i hforward
      exact absurd hforward (hphase i)
    · rw [htaken] at hrouter
      exact absurd hrouter.2 (Nat.not_lt_zero _)
  have hmodules : ∀ n ∈ s.nodes, n.module.isIdle = true := by
    intro n hmem
    obtain ⟨i, hi, rfl⟩ := List.mem_iff_getElem.mp hmem
    obtain ⟨u, received, ⟨depth, -, hflows⟩, hreceived⟩ := t.node (List.getElem?_eq_getElem hi)
    refine (hflows.of_rests (hrests _ hmem)).2.2.2 ?_
    rw [pendingFor, if_neg (hphase i), List.append_nil] at hreceived
    rw [hreceived, deliveries]
    exact Flit.openRun_flatten fun r hr => Flit.isRun_of_mem_runs (List.mem_filter.mp hr).1
  exact isIdle_iff.mpr ⟨hingress, hegress, hstaged, hcollect, hout, hmodules⟩

/-- The router does not wait for a module that rests, before or after a step of
this module. -/
theorem Traces.not_forward (t : s.Traces units limit accepted popped taken merged)
    (hrests : ∀ n ∈ s.nodes, n.module.Rests)
    (hfull : ∀ i n, s.phase = .forward i → (s.nodes.map stepNode)[i]? = some n →
      n.module.input.ready = false) : ∀ i, s.phase ≠ .forward i := by
  intro i hphase
  obtain ⟨hi, -, -⟩ := t.router.of_forward hphase
  have hrest := hrests _ (List.getElem_mem hi)
  obtain ⟨moved, hinput⟩ := s.nodes[i].module.tick_input s.nodes[i].out.ready
  have hkeeps : (stepNode s.nodes[i]).module.input = s.nodes[i].module.input := by
    refine hinput.trans ?_
    cases moved with
    | false => rfl
    | true => exact Buffer.pop_of_peek_none hrest.input
  have hroom := t.input_ready hphase (List.getElem?_eq_getElem hi) hrest
  have hnone := hfull i (stepNode s.nodes[i]) hphase (by simp [hi])
  rw [hkeeps, hroom] at hnone
  cases hnone

/-- When no part of a subnet makes the work less, the subnet is idle. -/
theorem Traces.isIdle_of_stuck (t : s.Traces units limit accepted popped taken merged)
    (hopen : Flit.openRun accepted = []) (hegress : s.egress.flits = [])
    (hheads : ∀ i, s.arbiter.granted = none ∨ s.arbiter.granted = some i →
      Arbiter.headOf s.outputs i = none)
    (hrests : ∀ n ∈ s.nodes, n.out.slot = none → n.module.Rests)
    (hwaits : (∀ i, s.phase ≠ .forward i) → s.ingress.flits = [])
    (hfull : ∀ i n, s.phase = .forward i → (s.nodes.map stepNode)[i]? = some n →
      n.module.input.ready = false) : s.isIdle = true := by
  have hgranted := t.granted_eq_none hheads hrests
  have hout : ∀ n ∈ s.nodes, n.out.slot = none := by
    intro n hmem
    obtain ⟨i, hi, rfl⟩ := List.mem_iff_getElem.mp hmem
    have hhead := hheads i (Or.inl hgranted)
    rw [headOf_outputs_eq, List.getElem?_eq_getElem hi] at hhead
    exact hhead
  have hall : ∀ n ∈ s.nodes, n.module.Rests := fun n hmem => hrests n hmem (hout n hmem)
  have hphase := t.not_forward hall hfull
  exact t.isIdle_of_rests hopen (hwaits hphase) hegress hphase hout hall

/-- A round makes the work less, or the subnet is idle. -/
theorem Traces.round_work (t : s.Traces units limit accepted popped taken merged)
    (hopen : Flit.openRun accepted = []) : s.isIdle = true ∨ s.round.work.Less s.work := by
  have t₀ : ({ s with counts.steps := s.counts.steps + 1 } : Subnet).Traces units limit accepted
      popped taken merged := { t with }
  obtain ⟨merged', t₁⟩ := t₀.stepEgress
  obtain ⟨taken', t₃⟩ := t₁.stepNodes.stepRouter
  have hegress := ({ s with counts.steps := s.counts.steps + 1 } : Subnet).stepEgress_work
  have hnodes := t₁.stepNodes_work
  have hrouter := t₁.stepNodes.stepRouter_work
  have hpop := t₃.popEgress_work
  have hnodesMost : Work.AtMost _ _ := hnodes.imp_right And.left
  have hrouterMost : Work.AtMost _ _ := hrouter.imp_right fun hsame => congrArg work hsame.1
  have hpopMost : Work.AtMost _ _ := hpop.imp_right fun hsame => congrArg work hsame.1
  rcases hegress with hless | ⟨hegress, hkept, hshown⟩
  · exact Or.inr (((hpopMost.trans hrouterMost).trans hnodesMost).trans_less hless)
  rcases hnodes with hless | ⟨hnodes, hrests⟩
  · rw [hegress] at hless
    exact Or.inr ((hpopMost.trans hrouterMost).trans_less hless)
  rcases hrouter with hless | ⟨hstill, hwaits, hfull⟩
  · rw [hnodes, hegress] at hless
    exact Or.inr (hpopMost.trans_less hless)
  rcases hpop with hless | ⟨-, hempty⟩
  · rw [congrArg work hstill, hnodes, hegress] at hless
    exact Or.inr hless
  -- Nothing has moved, so what was seen on the way is seen in the subnet itself.
  left
  have hempty : s.egress.flits = [] := by
    rw [hstill] at hempty
    exact (congrArg Buffer.flits hkept).symm.trans hempty
  have hready : s.egress.ready = true := by
    unfold Buffer.ready Buffer.isFull Buffer.size
    rw [hempty, Bool.not_eq_true', decide_eq_false_iff_not]
    exact Nat.not_le.mpr t.egressDepth
  obtain ⟨hsame, hheads⟩ := hshown hready
  rw [hsame] at hrests hwaits hfull
  exact t₀.isIdle_of_stuck hopen hempty hheads hrests hwaits hfull

/-! ## Rest -/

theorem Traces.round (t : s.Traces units limit accepted popped taken merged) :
    ∃ popped' taken' merged', s.round.Traces units limit accepted popped' taken' merged' := by
  obtain ⟨taken', merged', t⟩ := t.step
  exact ⟨_, taken', merged', t.popEgress⟩

/-- Rounds bring a subnet to rest when the host has ended its last packet. -/
theorem Traces.comes_to_rest (t : s.Traces units limit accepted popped taken merged)
    (hopen : Flit.openRun accepted = []) : ∃ n, (rounds n s).isIdle = true := by
  -- On the work that is left; where it is in the subnet is not said, as it moves.
  induction hwork : s.work using Work.wellFounded_less.induction
    generalizing s popped taken merged with
  | h w ih =>
    subst hwork
    rcases t.round_work hopen with hidle | hless
    · exact ⟨0, hidle⟩
    · obtain ⟨popped', taken', merged', t'⟩ := t.round
      obtain ⟨n, hn⟩ := ih _ hless t' rfl
      exact ⟨n + 1, hn⟩

end Subnet

/-- The interconnect is free of deadlocks.  In whatever state a run leaves it, a
number of rounds makes a subnet idle, unless the last packet that it accepted from
the host lacks its end. -/
theorem subnet_comes_to_rest {link : LinkSettings} {target : TargetSettings}
    {backends : List MapBackend} {s : Subnet}
    (hs : Subnet.withBackends link target backends = .ok s) (actions : List SubnetAction)
    (hended : ∀ f ∈ (SubnetRun.ofActions s actions).accepted.getLast?, f.last = true) :
    ∃ n, (Subnet.rounds n (SubnetRun.ofActions s actions).subnet).isIdle = true := by
  obtain ⟨taken, merged, t⟩ := SubnetRun.traces hs actions
  exact t.comes_to_rest ((Flit.openRun_eq_nil_iff _).mpr hended)

/-- A module with a late backend has been asked for a register, and a packet for
nobody follows. -/
theorem subnet_comes_to_rest_late :
    ∃ s, Subnet.withBackends {} {}
        [(MapBackend.ofRange 0x200 0x300).withLatency 3, .ofRange 0x200 0x300] = .ok s ∧
      let read : Packet :=
        { dest := 1, src := 0x3ff, kind := .register (.readRequest .w16), payload := [0x200] }
      let r := SubnetRun.ofActions s
        ((Packet.stream [read, { read with dest := 0x200 }]).map .push ++ List.replicate 9 .step)
      r.subnet.isIdle = false ∧ ∃ n, (Subnet.rounds n r.subnet).isIdle = true := by
  have hs : Subnet.withBackends {} {}
      [(MapBackend.ofRange 0x200 0x300).withLatency 3, .ofRange 0x200 0x300] = .ok _ := rfl
  refine ⟨_, hs, ?_, subnet_comes_to_rest hs _ fun f hf => ?_⟩
  · decide +kernel
  · cases hf
    rfl

end ProbeNet
