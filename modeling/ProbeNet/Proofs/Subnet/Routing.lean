import ProbeNet.Proofs.Module.Progress
import ProbeNet.Proofs.Stream.Exclusivity
import ProbeNet.Proofs.Stream.Interleaving
import ProbeNet.Proofs.Subnet.Composition

/-!
# Routing is static

The router gives each module the packets of the host that name it and are short enough, in
order and whole, and it counts what it does with every packet: `router_delivers_packets`.
Nothing is assumed of the modules.  They may refuse flits as long as they like, so they are
replaced in a run by whatever comes to mind.

* `Subnet.handed` is what the router puts into the input buffer of a module.
* `Subnet.Dispatches` is the invariant of the router, its counters included.
* `Dispatches.stepRouter` keeps it, and `Routes.stepRouter_moves` says that the router only
  waits for the host or for a module.
-/

namespace ProbeNet

open Register

namespace Subnet

/-! ## What the router counts -/

/-- The packets that are too long; the last of them may still be arriving. -/
def oversized (limit : Nat) (fs : List Flit) : List (List Flit) :=
  (Flit.packets fs).filter fun p => limit < p.length

/-- The packets that are short enough and name none of `count` modules. -/
def unroutable (limit count : Nat) (fs : List Flit) : List (List Flit) :=
  (Flit.runs fs).filter fun p => p.length ≤ limit && count ≤ destOf p

/-- A flit makes a packet too long when the packet is at the limit. -/
theorem length_oversized_snoc (limit : Nat) (fs : List Flit) (f : Flit) :
    (oversized limit (fs ++ [f])).length = (oversized limit fs).length +
      if limit < (Flit.openRun fs ++ [f]).length ∧ ¬ limit < (Flit.openRun fs).length then 1
      else 0 := by
  have hpackets : (oversized limit (fs ++ [f])).length =
      (Flit.runs fs ++ [Flit.openRun fs ++ [f]]).countP fun p => limit < p.length := by
    rw [oversized, Flit.packets, ← List.countP_eq_length_filter, Flit.runs_snoc, Flit.openRun_snoc]
    cases f.last with
    | true => rw [if_pos rfl, if_pos rfl, List.countP_append, List.countP_singleton]; rfl
    | false => rfl
  rw [hpackets, oversized, Flit.packets, ← List.countP_eq_length_filter]
  simp only [List.countP_append, List.countP_singleton, decide_eq_true_eq, List.length_append,
    List.length_singleton]
  split_ifs <;> omega

theorem length_unroutable_snoc (limit count : Nat) (fs : List Flit) (f : Flit) :
    (unroutable limit count (fs ++ [f])).length = (unroutable limit count fs).length +
      if f.last = true ∧ (Flit.openRun fs ++ [f]).length ≤ limit ∧
        count ≤ destOf (Flit.openRun fs ++ [f]) then 1 else 0 := by
  rw [unroutable, unroutable, ← List.countP_eq_length_filter, ← List.countP_eq_length_filter,
    Flit.runs_snoc]
  cases f.last with
  | false => simp
  | true =>
    rw [if_pos rfl, List.countP_append, List.countP_singleton]
    simp only [Bool.and_eq_true, decide_eq_true_eq, true_and]

/-! ## What the router hands over -/

/-- The flits in the input buffer of the module at place `i`. -/
def inputOf (s : Subnet) (i : Nat) : List Flit :=
  (s.nodes[i]?.map fun n => n.module.input.flits).getD []

/-- The flits that the router puts into the input buffer of the module at place `i` when its
turn comes: what is then behind the flits that were there before. -/
def handed (s : Subnet) (i : Nat) : List Flit :=
  (s.stepRouter.inputOf i).drop (s.inputOf i).length

/-- The subnet in the middle of a step, when the turn of the router comes. -/
def routing (s : Subnet) : Subnet :=
  let s := ({ s with counts.steps := s.counts.steps + 1 } : Subnet).stepEgress
  { s with nodes := s.nodes.map stepNode }

theorem step_eq (s : Subnet) : s.step = s.routing.stepRouter := rfl

/-- Before its turn, nothing changes for the router but what the modules show. -/
theorem routing_frame (s : Subnet) :
    s.routing.nodes.length = s.nodes.length ∧ s.routing.ingress = s.ingress ∧
      s.routing.maxPacketLen = s.maxPacketLen ∧ s.routing.phase = s.phase ∧
      s.routing.staged = s.staged ∧
      s.routing.counts = { s.counts with steps := s.counts.steps + 1 } := by
  refine ⟨?_, rfl, rfl, rfl, rfl, rfl⟩
  unfold routing
  rw [List.length_map, stepEgress_frame _ |>.1]

variable {s : Subnet} {accepted taken : List Flit} {received : Nat → List Flit} {f : Flit}

theorem handed_of_nodes (h : s.stepRouter.nodes = s.nodes) (i : Nat) : s.handed i = [] := by
  unfold handed inputOf
  rw [h, List.drop_length]

/-- A flit that is handed over is the newest one in the buffer of its module. -/
theorem handed_of_push {i : Nat} {n : Node} (hn : s.nodes[i]? = some n)
    (hnodes : s.stepRouter.nodes =
      (s.modifyModule i fun m => { m with input := m.input.push f }).nodes) (j : Nat) :
    s.handed j = if i = j ∧ n.module.input.ready = true then [f] else [] := by
  unfold handed inputOf
  rw [hnodes]
  by_cases hij : i = j
  · subst hij
    simp [modifyModule, hn]
  · have hsame : (s.modifyModule i fun m => { m with input := m.input.push f }).nodes[j]? =
        s.nodes[j]? := by
      simp [modifyModule, hij]
    rw [hsame, List.drop_length, if_neg fun hpushed => hij hpushed.1]

theorem handed_of_forward {i : Nat} {n : Node} {rest : List Flit}
    (hphase : s.phase = .forward i) (hn : s.nodes[i]? = some n) (hstaged : s.staged = f :: rest)
    (hready : n.module.input.ready = true) (j : Nat) :
    s.handed j = if i = j then [f] else [] := by
  have hnodes : s.stepRouter.nodes =
      (s.modifyModule i fun m => { m with input := m.input.push f }).nodes := by
    rcases stepForward_cases hn hstaged with ⟨hfull, -⟩ | ⟨-, hstep⟩
    · rw [hready] at hfull
      cases hfull
    · simp only [stepRouter, hphase, hstep]
  rw [handed_of_push hn hnodes, hready]
  simp only [and_true]

theorem inputOf_stepRouter (s : Subnet) (i : Nat) :
    s.stepRouter.inputOf i = s.inputOf i ++ s.handed i := by
  have hbegins : s.inputOf i <+: s.stepRouter.inputOf i := by
    obtain ⟨-, -, hnodes | ⟨j, n, f, hn, hnodes⟩⟩ := s.stepRouter_frame
    · have hsame : s.stepRouter.inputOf i = s.inputOf i := by rw [inputOf, inputOf, hnodes]
      exact hsame ▸ List.prefix_rfl
    · rw [inputOf, inputOf, hnodes, modifyModule, List.getElem?_modify]
      by_cases hij : j = i
      · subst hij
        simp [hn]
      · simp [hij]
  obtain ⟨more, hmore⟩ := hbegins
  rw [handed, ← hmore, List.drop_left]

theorem inputOf_stepEgress (s : Subnet) (i : Nat) : s.stepEgress.inputOf i = s.inputOf i := by
  have hmodule := congrArg (Option.map fun m => m.input.flits) (s.module_stepEgress i)
  rw [Option.map_map, Option.map_map] at hmodule
  exact congrArg (Option.getD · []) hmodule

/-- In a step a module takes some flits out of its input buffer, and the router adds those that
it hands over.  Nothing else gets there. -/
theorem inputOf_step (s : Subnet) (i : Nat) :
    ∃ gone, s.inputOf i ++ s.routing.handed i = gone ++ s.step.inputOf i := by
  obtain ⟨gone, hgone⟩ : ∃ gone, s.inputOf i = gone ++ s.routing.inputOf i := by
    have hsame := inputOf_stepEgress { s with counts.steps := s.counts.steps + 1 } i
    rw [show s.inputOf i = _ from hsame.symm]
    unfold routing inputOf
    rw [List.getElem?_map]
    cases (Subnet.stepEgress _).nodes[i]? with
    | none => exact ⟨[], rfl⟩
    | some n =>
      obtain ⟨taken, hinput⟩ := n.module.tick_input n.out.ready
      refine ⟨if taken then n.module.input.peek.toList else [], ?_⟩
      show n.module.input.flits = _ ++ (n.module.tick n.out.ready).1.input.flits
      rw [hinput, Buffer.flits_popIf]
  refine ⟨gone, ?_⟩
  rw [step_eq, inputOf_stepRouter, hgone, List.append_assoc]

/-! ## The invariant of the router -/

/-- Of the flits `accepted` the router has taken `taken`, and it has handed `received i` to the
module at each place `i`, of which there are `count`.  It has counted the packets that are too
long, those for nobody, and those that it has handed over to the last flit. -/
structure Dispatches (s : Subnet) (limit count : Nat) (accepted taken : List Flit)
    (received : Nat → List Flit) : Prop where
  packetLen : s.maxPacketLen = limit
  places : s.nodes.length = count
  ingress : accepted = taken ++ s.ingress.flits
  admission : s.ingress.admission = .streaming
  router : s.Routes taken
  modules : ∀ i < count, received i ++ s.pendingFor i = deliveries limit i taken
  oversized : s.counts.oversized = (Subnet.oversized limit taken).length
  unroutable : s.counts.unroutable = (Subnet.unroutable limit count taken).length
  routed : s.counts.routed =
    ((List.range count).map fun i => (received i).countP Flit.last).sum

variable {limit count : Nat}

theorem Dispatches.congr (d : s.Dispatches limit count accepted taken received) {s' : Subnet}
    (hcount : s'.nodes.length = s.nodes.length) (hingress : s'.ingress = s.ingress)
    (hlimit : s'.maxPacketLen = s.maxPacketLen) (hphase : s'.phase = s.phase)
    (hstaged : s'.staged = s.staged) {steps : Nat}
    (hcounts : s'.counts = { s.counts with steps }) :
    s'.Dispatches limit count accepted taken received where
  packetLen := hlimit.trans d.packetLen
  places := hcount.trans d.places
  ingress := by rw [hingress, d.ingress]
  admission := by rw [hingress, d.admission]
  router := d.router.congr hphase hstaged hcount hlimit
  modules := by
    unfold pendingFor
    rw [hphase, hstaged]
    exact d.modules
  oversized := by rw [hcounts, ← d.oversized]
  unroutable := by rw [hcounts, ← d.unroutable]
  routed := by rw [hcounts, ← d.routed]

/-- The router counts a packet when a flit makes it too long, and when its last flit shows that
it is for nobody. -/
theorem Routes.take_counts (h : s.Routes taken) (hnone : ∀ i, s.phase ≠ .forward i)
    (hpeek : s.ingress.peek = some f) :
    s.stepRouter.counts.oversized = s.counts.oversized +
        (if s.maxPacketLen < (Flit.openRun taken ++ [f]).length ∧
          ¬ s.maxPacketLen < (Flit.openRun taken).length then 1 else 0) ∧
      s.stepRouter.counts.unroutable = s.counts.unroutable +
        (if f.last = true ∧ (Flit.openRun taken ++ [f]).length ≤ s.maxPacketLen ∧
          s.nodes.length ≤ destOf (Flit.openRun taken ++ [f]) then 1 else 0) ∧
      s.stepRouter.counts.routed = s.counts.routed := by
  rcases h.take_cases hnone hpeek with
    ⟨hlong, hstep⟩ | ⟨hshort, hlast, hstep⟩ | ⟨hshort, hlast, hdest, hstep⟩ |
      ⟨hshort, hlast, hdest, hstep⟩
  · have hnobody : ¬ (f.last = true ∧ (Flit.openRun taken ++ [f]).length ≤ s.maxPacketLen ∧
        s.nodes.length ≤ destOf (Flit.openRun taken ++ [f])) :=
      fun hnobody => Nat.not_lt.mpr hnobody.2.1 hlong
    rw [hstep, if_neg hnobody]
    refine ⟨congrArg (s.counts.oversized + ·) ?_, rfl, rfl⟩
    by_cases hbefore : s.maxPacketLen < (Flit.openRun taken).length
    · rw [if_pos hbefore, if_neg fun hfirst => hfirst.2 hbefore]
    · rw [if_neg hbefore, if_pos ⟨hlong, hbefore⟩]
  · rw [hstep, if_neg fun hlong => Nat.not_lt.mpr hshort hlong.1,
      if_neg fun hnobody => by rw [hlast] at hnobody; cases hnobody.1]
    exact ⟨rfl, rfl, rfl⟩
  · rw [hstep, if_neg fun hlong => Nat.not_lt.mpr hshort hlong.1,
      if_neg fun hnobody => Nat.not_lt.mpr hnobody.2.2 hdest]
    exact ⟨rfl, rfl, rfl⟩
  · rw [hstep, if_neg fun hlong => Nat.not_lt.mpr hshort hlong.1, if_pos ⟨hlast, hshort, hdest⟩]
    exact ⟨rfl, rfl, rfl⟩

/-- The router takes a flit from the ingress, and counts the packet that it ends or makes too
long, unless the packet is staged. -/
theorem Dispatches.takeIngress (d : s.Dispatches limit count accepted taken received)
    (hnone : ∀ i, s.phase ≠ .forward i) (hpeek : s.ingress.peek = some f) :
    s.stepRouter.Dispatches limit count accepted (taken ++ [f]) received := by
  obtain ⟨hroutes, hpending⟩ := d.router.take hnone hpeek
  obtain ⟨hoversized, hunroutable, hrouted⟩ := d.router.take_counts hnone hpeek
  obtain ⟨staged, phase, counts, hstep⟩ := d.router.take_frame hnone hpeek
  rw [d.packetLen] at hpending hoversized hunroutable
  rw [d.places] at hpending hunroutable
  rw [hstep] at hroutes hpending hoversized hunroutable hrouted ⊢
  refine ⟨d.packetLen, d.places, ?_, ?_, hroutes, fun i hi => ?_, ?_, ?_, hrouted.trans d.routed⟩
  · rw [d.ingress, Buffer.flits_of_peek hpeek, List.append_assoc]
    rfl
  · rw [Buffer.pop_admission, d.admission]
  · have hbefore := d.modules i hi
    rw [pendingFor_of_not_forward hnone, List.append_nil] at hbefore
    rw [hbefore]
    exact hpending i hi
  · rw [length_oversized_snoc, ← d.oversized]
    exact hoversized
  · rw [length_unroutable_snoc, ← d.unroutable]
    exact hunroutable

/-- The router hands a flit over if the module has room for it, and counts the packet that it
ends. -/
theorem Dispatches.stepForward (d : s.Dispatches limit count accepted taken received) {i : Nat}
    (hphase : s.phase = .forward i) :
    s.stepRouter.Dispatches limit count accepted taken fun j => received j ++ s.handed j := by
  have hforward : s.stepRouter = s.stepForward i := by simp only [stepRouter, hphase]
  obtain ⟨hi, -, hrun⟩ := d.router.of_forward hphase
  have hn := List.getElem?_eq_getElem hi
  obtain ⟨f, rest, hstaged⟩ := List.exists_cons_of_ne_nil hrun.ne_nil
  rcases stepForward_cases hn hstaged with ⟨-, hstep⟩ | ⟨hready, hstep⟩
  · have hsame : s.stepRouter = s := hforward.trans hstep
    have hnothing : (fun j => received j ++ s.handed j) = received := by
      funext j
      rw [handed_of_nodes (congrArg nodes hsame), List.append_nil]
    rw [hnothing, hsame]
    exact d
  · obtain ⟨hroutes, hpending⟩ := d.router.hand hphase hn hstaged hready
    have hhanded := handed_of_forward hphase hn hstaged hready
    rw [hforward]
    rw [hstep] at hroutes hpending ⊢
    -- The flit ends its packet exactly when nothing is left of what was staged.
    have hends : f.last = rest.isEmpty := by
      rw [hstaged] at hrun
      rcases hrun.cons_cases with ⟨hlast, rfl⟩ | ⟨hlast, hrest⟩
      · exact hlast
      · rw [hlast, List.isEmpty_eq_false_iff.mpr hrest.ne_nil]
    have hmarks : ∀ j, (received j ++ s.handed j).countP Flit.last =
        (received j).countP Flit.last + if i = j then f.last.toNat else 0 := by
      intro j
      rw [List.countP_append, hhanded j]
      split_ifs
      · cases hlast : f.last <;> simp [hlast]
      · rfl
    refine ⟨d.packetLen, ?_, d.ingress, d.admission, hroutes, fun j hj => ?_, d.oversized,
      d.unroutable, ?_⟩
    · rw [length_modifyModule, d.places]
    · rw [hhanded j, List.append_assoc, ← hpending j]
      exact d.modules j hj
    · have hplace : i < count := by rwa [← d.places]
      simp only [hmarks]
      rw [sum_range_add, if_pos hplace, ← d.routed, hends]
      cases rest <;> rfl

/-- The turn of the router keeps its invariant. -/
theorem Dispatches.stepRouter (d : s.Dispatches limit count accepted taken received) :
    ∃ taken', s.stepRouter.Dispatches limit count accepted taken' fun i =>
      received i ++ s.handed i := by
  rcases s.stepRouter_cases with ⟨i, hphase, -⟩ | ⟨hnone, ⟨f, hpeek⟩ | ⟨-, hstep⟩⟩
  · exact ⟨taken, d.stepForward hphase⟩
  · obtain ⟨staged, phase, counts, hstep⟩ := d.router.take_frame hnone hpeek
    have hnodes : s.stepRouter.nodes = s.nodes := by rw [hstep]
    refine ⟨taken ++ [f], ?_⟩
    simp only [handed_of_nodes hnodes, List.append_nil]
    exact d.takeIngress hnone hpeek
  · refine ⟨taken, ?_⟩
    simp only [handed_of_nodes (congrArg nodes hstep), List.append_nil]
    rw [hstep]
    exact d

/-- The router does not sleep: it takes a flit of the host or hands one over, unless there is
none, or the module has no room for the next one. -/
theorem Dispatches.stepRouter_moves (d : s.Dispatches limit count accepted taken received) :
    (∃ f, s.ingress.flits = f :: s.stepRouter.ingress.flits) ∨
    (∃ i f, s.pendingFor i = f :: s.stepRouter.pendingFor i ∧ s.handed i = [f]) ∨
    (s.ingress.flits = [] ∧ ∀ i, s.pendingFor i = []) ∨
    ∃ i n, s.pendingFor i ≠ [] ∧ s.nodes[i]? = some n ∧ n.module.input.ready = false := by
  rcases s.stepRouter_cases with ⟨i, hphase, hforward⟩ | ⟨hnone, ⟨f, hpeek⟩ | ⟨hpeek, -⟩⟩
  · obtain ⟨hi, -, hrun⟩ := d.router.of_forward hphase
    have hn := List.getElem?_eq_getElem hi
    obtain ⟨f, rest, hstaged⟩ := List.exists_cons_of_ne_nil hrun.ne_nil
    cases hready : s.nodes[i].module.input.ready with
    | false =>
      refine Or.inr (Or.inr (Or.inr ⟨i, _, ?_, hn, hready⟩))
      simp [pendingFor, hphase, hstaged]
    | true =>
      obtain ⟨-, hpending⟩ := d.router.hand hphase hn hstaged hready
      refine Or.inr (Or.inl ⟨i, f, ?_, ?_⟩)
      · rw [hforward, hpending i, if_pos rfl]
        rfl
      · rw [handed_of_forward hphase hn hstaged hready, if_pos rfl]
  · obtain ⟨staged, phase, counts, hstep⟩ := d.router.take_frame hnone hpeek
    refine Or.inl ⟨f, ?_⟩
    rw [hstep]
    exact Buffer.flits_of_peek hpeek
  · refine Or.inr (Or.inr (Or.inl ⟨?_, pendingFor_of_not_forward hnone⟩))
    rw [Buffer.peek_of_streaming d.admission] at hpeek
    exact List.head?_eq_none_iff.mp hpeek

/-! ## Steps -/

theorem Dispatches.routing (d : s.Dispatches limit count accepted taken received) :
    s.routing.Dispatches limit count accepted taken received := by
  obtain ⟨hcount, hingress, hlimit, hphase, hstaged, hcounts⟩ := s.routing_frame
  exact d.congr hcount hingress hlimit hphase hstaged hcounts

theorem Dispatches.step (d : s.Dispatches limit count accepted taken received) :
    ∃ taken', s.step.Dispatches limit count accepted taken' fun i =>
      received i ++ s.routing.handed i :=
  d.routing.stepRouter

theorem Dispatches.pushIngress (d : s.Dispatches limit count accepted taken received) (f : Flit) :
    (s.pushIngress f).Dispatches limit count (accepted ++ if s.ingressReady then [f] else [])
      taken received := by
  refine { d with
    ingress := ?_
    admission := by simpa [Subnet.pushIngress] using d.admission }
  show _ = taken ++ (s.ingress.push f).flits
  rw [Buffer.flits_push, d.ingress, List.append_assoc]
  rfl

/-- What happens inside a module does not concern the router. -/
theorem Dispatches.modifyModule (d : s.Dispatches limit count accepted taken received) (i : Nat)
    (g : DebugModule ModuleBackend → DebugModule ModuleBackend) :
    (s.modifyModule i g).Dispatches limit count accepted taken received :=
  d.congr (length_modifyModule ..) rfl rfl rfl rfl rfl

theorem Dispatches.emitEvent (d : s.Dispatches limit count accepted taken received) (a : Address)
    (payload : List Word) :
    (s.emitEvent a payload).1.Dispatches limit count accepted taken received := by
  rw [emitEvent_fst]
  exact d.modifyModule a.toNat _

theorem Dispatches.takeInbox (d : s.Dispatches limit count accepted taken received) (a : Address) :
    (s.takeInbox a).1.Dispatches limit count accepted taken received := by
  rw [takeInbox_fst]
  exact d.modifyModule a.toNat _

/-- A subnet that was just built has routed nothing. -/
theorem dispatches_initial {link : LinkSettings} {target : TargetSettings}
    {backends : List MapBackend} (h : withBackends link target backends = .ok s) :
    s.Dispatches link.maxPacketLen s.moduleCount [] [] fun _ => [] := by
  obtain ⟨-, -, nodes, -, rfl⟩ := withBackends_eq_ok h
  refine ⟨rfl, rfl, rfl, rfl, ⟨rfl, Nat.zero_le _⟩, fun _ _ => rfl, ?_, rfl, ?_⟩
  · simp [Subnet.oversized, Flit.packets]
  · simp

end Subnet

/-! ## Runs -/

/-- What happens to a subnet, as its router sees it. -/
inductive RoutingAction where
  /-- What may happen to any subnet. -/
  | act (action : SubnetAction)
  /-- The modules and their links change, in whatever way. -/
  | disturb (g : Nat → Node → Node)

/-- A run that also keeps account of the flits that the router has handed to each module. -/
structure RouterRun extends SubnetRun where
  received : Nat → List Flit := fun _ => []

namespace RouterRun

/-- The run after one more action.  Only a step hands flits over. -/
def act (r : RouterRun) : RoutingAction → RouterRun
  | .act .step =>
    { toSubnetRun := r.toSubnetRun.act .step
      received := fun i => r.received i ++ r.subnet.routing.handed i }
  | .act action => { r with toSubnetRun := r.toSubnetRun.act action }
  | .disturb g => { r with subnet := { r.subnet with nodes := r.subnet.nodes.mapIdx g } }

def ofActions (s : Subnet) (actions : List RoutingAction) : RouterRun :=
  actions.foldl act { subnet := s }

variable {r : RouterRun} {limit count : Nat} {taken : List Flit}

/-- Whatever happens, the router keeps account. -/
theorem dispatches_act (d : r.subnet.Dispatches limit count r.accepted taken r.received)
    (action : RoutingAction) :
    ∃ taken', (r.act action).subnet.Dispatches limit count (r.act action).accepted taken'
      (r.act action).received := by
  cases action with
  | disturb g => exact ⟨taken, d.congr List.length_mapIdx rfl rfl rfl rfl rfl⟩
  | act action =>
    cases action with
    | push f => exact ⟨taken, d.pushIngress f⟩
    | step => exact d.step
    | pop => exact ⟨taken, d.congr rfl rfl rfl rfl rfl rfl⟩
    | emit a payload => exact ⟨taken, d.emitEvent a payload⟩
    | takeInbox a => exact ⟨taken, d.takeInbox a⟩

/-- The router keeps account in every state that a run reaches. -/
theorem dispatches {link : LinkSettings} {target : TargetSettings} {backends : List MapBackend}
    {s : Subnet} (h : Subnet.withBackends link target backends = .ok s)
    (actions : List RoutingAction) :
    ∃ taken, (ofActions s actions).subnet.Dispatches link.maxPacketLen s.moduleCount
      (ofActions s actions).accepted taken (ofActions s actions).received := by
  induction actions using List.reverseRecOn with
  | nil => exact ⟨[], Subnet.dispatches_initial h⟩
  | append_singleton actions action ih =>
    obtain ⟨taken, d⟩ := ih
    rw [ofActions, List.foldl_append]
    exact dispatches_act d action

end RouterRun

/-- Take any subnet that can be built, flits that are presented to it when the host likes, and
modules that do what they like, so that they may refuse flits at any time.  The packets of the
host are its flits up to each one that is marked last.

At every moment the input buffer of the module at address `i` has been given, in order and
unchanged, the packets that are not too long and name `i` in the low ten bits of their first
word, or the beginning of them; and nothing else gets into the buffer in a step.  Of what the
router has taken all such packets have got there, but for what it has in hand: no packet holds up
or swallows the one behind it.  The counters are the numbers of the packets that have become too
long, of the others that name no module, and of those that were handed over to the last flit.  And
in each step the router takes a flit or hands one over, unless there is none, or the module that
it is for has no room. -/
theorem router_delivers_packets {link : LinkSettings} {target : TargetSettings}
    {backends : List MapBackend} {s : Subnet}
    (hs : Subnet.withBackends link target backends = .ok s) (actions : List RoutingAction) :
    let r := RouterRun.ofActions s actions
    let now := r.subnet
    let packetsFor (i : Nat) (fs : List Flit) := (Flit.runs fs).filter fun p =>
      p.length ≤ link.maxPacketLen &&
        (Address.ofWord ((p.head?.map Flit.word).getD 0)).toNat = i
    (∀ i < s.moduleCount, r.received i <+: (packetsFor i r.accepted).flatten) ∧
    (∃ taken, r.accepted = taken ++ now.ingress.flits ∧
      (∀ i < s.moduleCount, r.received i ++ now.pendingFor i = (packetsFor i taken).flatten) ∧
      now.counts.oversized = (Subnet.oversized link.maxPacketLen taken).length ∧
      now.counts.unroutable = (Subnet.unroutable link.maxPacketLen s.moduleCount taken).length ∧
      now.counts.routed =
        ((List.range s.moduleCount).map fun i => (Flit.runs (r.received i)).length).sum) ∧
    (∀ i, ∃ gone, now.inputOf i ++ now.routing.handed i = gone ++ now.step.inputOf i) ∧
    ((∃ f, now.ingress.flits = f :: now.step.ingress.flits) ∨
      (∃ i f, now.pendingFor i = f :: now.step.pendingFor i ∧ now.routing.handed i = [f]) ∨
      (now.ingress.flits = [] ∧ ∀ i, now.pendingFor i = []) ∨
      ∃ i n, now.pendingFor i ≠ [] ∧ now.routing.nodes[i]? = some n ∧
        n.module.input.ready = false) := by
  intro r now packetsFor
  obtain ⟨taken, d⟩ := RouterRun.dispatches hs actions
  have htaken : taken <+: r.accepted := by
    rw [d.ingress]
    exact List.prefix_append _ _
  refine ⟨fun i hi => ?_, ⟨taken, d.ingress, d.modules, d.oversized, d.unroutable, ?_⟩,
    now.inputOf_step, d.routing.stepRouter_moves⟩
  · have hgiven : r.received i <+: Subnet.deliveries link.maxPacketLen i taken := by
      rw [← d.modules i hi]
      exact List.prefix_append _ _
    exact hgiven.trans (Subnet.deliveries_prefix link.maxPacketLen i htaken)
  · simp only [Flit.length_runs]
    exact d.routed

/-- A packet that is too long, one for nobody and one for module 1 arrive while that module has no
room.  The first two are counted and reach no module; the third is handed over when the module
has room again. -/
theorem router_delivers_packets_stalled :
    ∃ s, Subnet.withBackends {} {} [.ofRange 0x200 0x300, .ofRange 0x200 0x300] = .ok s ∧
      let note : Packet := { dest := 1, src := 0x3ff, kind := .plain 0, payload := [7] }
      let packets :=
        [{ note with payload := List.replicate 12 7 }, { note with dest := 0x200 }, note]
      let setDepth (depth : Nat) : RoutingAction := .disturb fun i n =>
        if i = 1 then { n with module.input := { n.module.input with depth } } else n
      let feed := (Packet.stream packets).flatMap fun f => [.act (.push f), .act .step]
      let stalled := RouterRun.ofActions s
        (setDepth 0 :: feed ++ List.replicate 9 (.act .step))
      let served := RouterRun.ofActions s
        (setDepth 0 :: feed ++ setDepth 16 :: List.replicate 9 (.act .step))
      stalled.received 1 = [] ∧ served.received 1 = note.toFlits ∧
        served.subnet.counts = { steps := 32, routed := 1, unroutable := 1, oversized := 1 } ∧
        served.received 1 <+: (Subnet.deliveries 12 1 served.accepted) := by
  have hs : Subnet.withBackends {} {} [.ofRange 0x200 0x300, .ofRange 0x200 0x300] = .ok _ := rfl
  refine ⟨_, hs, ?_⟩
  intro note packets setDepth feed stalled served
  refine ⟨by decide +kernel, by decide +kernel, by decide +kernel, ?_⟩
  exact (router_delivers_packets hs _).1 1 (by decide)

end ProbeNet
