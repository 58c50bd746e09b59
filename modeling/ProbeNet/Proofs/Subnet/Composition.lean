import ProbeNet.Proofs.Module.Runs
import ProbeNet.Proofs.Subnet.Flow

/-!
# The modules in a subnet

Each module of a subnet has a run of its own: whatever happens to the subnet, the
module takes its steps, is given flits, is told to emit events and has its inbox
emptied, and nothing else happens to it.  What is known of the runs of modules is
thus known of the modules of a subnet.

* `SubnetRun.emissions` are the events that the modules were made to emit.
* `Subnet.Hosts` says that something holds of the module at each place and of what it has sent.
  What happens to a subnet keeps it when the modules do.
* `Subnet.Comprises` ties a subnet to the runs of its modules.  Each action keeps
  it, and `SubnetRun.comprises` says that it holds in every state.
-/

namespace ProbeNet

open Register

/-! ## Emitted events -/

/-- The event that a module is made to emit.  It goes to the event destination that the module
has at this moment; a module that refuses emits nothing. -/
def Subnet.emission? (s : Subnet) (a : Address) (payload : List Word) : Option Event :=
  match s.module? a, (s.emitEvent a payload).2 with
  | some m, .ok packets =>
    some { src := a, dest := m.engine.registers.eventDest, kind := .eventLast, payload, packets }
  | _, _ => none

namespace SubnetRun

/-- The event that an action makes a module emit. -/
def emission? (r : SubnetRun) : SubnetAction → Option Event
  | .emit a payload => r.subnet.emission? a payload
  | .push _ | .step | .pop | .takeInbox _ => none

/-- The events that actions make modules emit, in order. -/
def emissions (r : SubnetRun) : List SubnetAction → List Event
  | [] => []
  | action :: actions => (r.emission? action).toList ++ (r.act action).emissions actions

theorem emissions_snoc (r : SubnetRun) (actions : List SubnetAction) (action : SubnetAction) :
    r.emissions (actions ++ [action]) =
      r.emissions actions ++ ((actions.foldl act r).emission? action).toList := by
  induction actions generalizing r with
  | nil => simp [emissions]
  | cons first actions ih => simp [emissions, ih]

end SubnetRun

theorem Subnet.emission?_of_module {s : Subnet} {a : Address} {m : DebugModule ModuleBackend}
    (hm : s.module? a = some m) (haddress : m.address = a) (payload : List Word) :
    s.emission? a payload = m.emission? payload := by
  unfold emission? emitEvent DebugModule.emission?
  simp only [hm]
  cases (m.emitEvent payload).2 with
  | error e => rfl
  | ok packets => rw [haddress]

theorem Subnet.emission?_of_none {s : Subnet} {a : Address} (hm : s.module? a = none)
    (payload : List Word) : s.emission? a payload = none := by
  simp [emission?, hm]

/-! ## What is kept at every place -/

namespace Subnet

/-- The arbiter has let `merged` through, of which `popped` has left the subnet, and `P` holds of
the module at each place and of what this has sent: what has gone through the arbiter or is on
the output link of the module. -/
structure Hosts (P : Nat → DebugModule ModuleBackend → List Flit → Prop) (s : Subnet)
    (popped : List Flit) (merged : Passage) : Prop where
  merges : s.Merges popped merged
  modules : ∀ i n, s.nodes[i]? = some n → P i n.module (merged.share i ++ n.out.slot.toList)

section Hosts

variable {P P' : Nat → DebugModule ModuleBackend → List Flit → Prop} {s s' : Subnet}
  {popped : List Flit} {merged : Passage}

theorem Hosts.congr (h : s.Hosts P popped merged) (hnodes : s'.nodes = s.nodes)
    (hegress : s'.egress = s.egress) (harbiter : s'.arbiter = s.arbiter) :
    s'.Hosts P popped merged := by
  refine ⟨⟨?_, ?_⟩, ?_⟩
  · rw [hegress]
    exact h.merges.egress
  · rw [harbiter, outputs, hnodes]
    exact h.merges.arbiter
  · rw [hnodes]
    exact h.modules

/-- What happens to one module is no concern of the others. -/
theorem Hosts.modifyModule (h : s.Hosts P popped merged) {i : Nat}
    {g : DebugModule ModuleBackend → DebugModule ModuleBackend}
    (hothers : ∀ j n sent, s.nodes[j]? = some n → i ≠ j → P j n.module sent → P' j n.module sent)
    (hg : ∀ n sent, s.nodes[i]? = some n → P i n.module sent → P' i (g n.module) sent) :
    (s.modifyModule i g).Hosts P' popped merged := by
  refine ⟨⟨h.merges.egress, ?_⟩, fun j n' hn' => ?_⟩
  · rw [outputs_modifyModule]
    exact h.merges.arbiter
  · obtain ⟨n, hn, rfl⟩ := getElem?_modifyModule hn'
    by_cases hij : i = j
    · subst hij
      simpa using hg n _ hn (h.modules i n hn)
    · simpa [hij] using hothers j n _ hn hij (h.modules j n hn)

/-- The arbiter moves flits and leaves the modules alone. -/
theorem Hosts.stepEgress (h : s.Hosts P popped merged) :
    ∃ merged', s.stepEgress.Hosts P popped merged' := by
  obtain ⟨merged', hmerges, hnodes⟩ := h.merges.stepEgress
  refine ⟨merged', hmerges, fun i n' hn' => ?_⟩
  obtain ⟨n, hn, hmodule, hsent⟩ := hnodes i n' hn'
  rw [hmodule, hsent]
  exact h.modules i n hn

/-- Each module takes its step against its own output link. -/
theorem Hosts.stepNodes (h : s.Hosts P popped merged)
    (htick : ∀ i n sent ready, s.nodes[i]? = some n → P i n.module sent →
      P' i (n.module.tick ready).1
        (sent ++ if ready then (n.module.tick ready).2.toList else [])) :
    ({ s with nodes := s.nodes.map stepNode } : Subnet).Hosts P' popped merged := by
  refine ⟨h.merges.stepNodes, fun i n' hn' => ?_⟩
  rw [List.getElem?_map] at hn'
  obtain ⟨n, hn, rfl⟩ := Option.map_eq_some_iff.mp hn'
  have hstep := htick i n _ n.out.ready hn (h.modules i n hn)
  rw [List.append_assoc, ← Link.slot_offer] at hstep
  exact hstep

theorem Hosts.popEgress (h : s.Hosts P popped merged) :
    s.popEgress.Hosts P (popped ++ s.peekEgress.toList) merged := ⟨h.merges.popEgress, h.modules⟩

end Hosts

/-! ## The modules of a subnet -/

/-- The subnet `s` has become of `s₀`.  Each module has become of the one that was at its place;
what it has sent has gone through the arbiter or is on its output link, and what it has
emitted are the events of `emitted` that carry its address. -/
structure Comprises (s₀ s : Subnet) (popped : List Flit) (emitted : List Event)
    (merged : Passage) : Prop where
  merges : s.Merges popped merged
  count : s.nodes.length = s₀.nodes.length
  emitters : ∀ e ∈ emitted, e.src.toNat < s₀.nodes.length
  modules : ∀ i (n n₀ : Node), s.nodes[i]? = some n → s₀.nodes[i]? = some n₀ →
    n₀.module.Ran n.module (merged.share i ++ n.out.slot.toList)
      (emitted.filter fun e => e.src = BitVec.ofNat 10 i)

/-- The module has become of the one at the same place of `s₀`. -/
def RanFrom (s₀ : Subnet) (emitted : List Event) (i : Nat) (m : DebugModule ModuleBackend)
    (sent : List Flit) : Prop :=
  ∀ n₀, s₀.nodes[i]? = some n₀ →
    n₀.module.Ran m sent (emitted.filter fun e => e.src = BitVec.ofNat 10 i)

variable {s₀ s s' : Subnet} {popped : List Flit} {emitted : List Event} {merged : Passage}

theorem Comprises.hosts (c : s₀.Comprises s popped emitted merged) :
    s.Hosts (s₀.RanFrom emitted) popped merged :=
  ⟨c.merges, fun i n hn n₀ => c.modules i n n₀ hn⟩

theorem Hosts.comprises (h : s.Hosts (s₀.RanFrom emitted) popped merged)
    (hcount : s.nodes.length = s₀.nodes.length)
    (hemitters : ∀ e ∈ emitted, e.src.toNat < s₀.nodes.length) :
    s₀.Comprises s popped emitted merged :=
  ⟨h.merges, hcount, hemitters, fun i n n₀ hn => h.modules i n hn n₀⟩

theorem Comprises.congr (c : s₀.Comprises s popped emitted merged) (hnodes : s'.nodes = s.nodes)
    (hegress : s'.egress = s.egress) (harbiter : s'.arbiter = s.arbiter) :
    s₀.Comprises s' popped emitted merged :=
  (c.hosts.congr hnodes hegress harbiter).comprises (hnodes ▸ c.count) c.emitters

theorem Comprises.modifyModule (c : s₀.Comprises s popped emitted merged) {i : Nat}
    {g : DebugModule ModuleBackend → DebugModule ModuleBackend} {emitted' : List Event}
    (hemitters : ∀ e ∈ emitted', e.src.toNat < s₀.nodes.length)
    (hothers : ∀ j < s.nodes.length, i ≠ j →
      emitted'.filter (fun e => e.src = BitVec.ofNat 10 j) =
        emitted.filter fun e => e.src = BitVec.ofNat 10 j)
    (hg : ∀ (n n₀ : Node) sent, s.nodes[i]? = some n → s₀.nodes[i]? = some n₀ →
      n₀.module.Ran n.module sent (emitted.filter fun e => e.src = BitVec.ofNat 10 i) →
      n₀.module.Ran (g n.module) sent (emitted'.filter fun e => e.src = BitVec.ofNat 10 i)) :
    s₀.Comprises (s.modifyModule i g) popped emitted' merged := by
  have hosts : (s.modifyModule i g).Hosts (s₀.RanFrom emitted') popped merged := by
    refine c.hosts.modifyModule (fun j n sent hn hne hran n₀ hn₀ => ?_)
      fun n sent hn hran n₀ hn₀ => hg n n₀ sent hn hn₀ (hran n₀ hn₀)
    rw [hothers j (List.getElem?_eq_some_iff.mp hn).1 hne]
    exact hran n₀ hn₀
  exact hosts.comprises ((length_modifyModule ..).trans c.count) hemitters

/-- What a module does without emitting an event. -/
theorem Comprises.modifyModule_quiet (c : s₀.Comprises s popped emitted merged) {i : Nat}
    {g : DebugModule ModuleBackend → DebugModule ModuleBackend}
    (hg : ∀ (n n₀ : Node) sent, s.nodes[i]? = some n → s₀.nodes[i]? = some n₀ →
      n₀.module.Ran n.module sent (emitted.filter fun e => e.src = BitVec.ofNat 10 i) →
      n₀.module.Ran (g n.module) sent (emitted.filter fun e => e.src = BitVec.ofNat 10 i)) :
    s₀.Comprises (s.modifyModule i g) popped emitted merged :=
  c.modifyModule c.emitters (fun _ _ _ => rfl) hg

/-! ## Steps -/

theorem Comprises.stepEgress (c : s₀.Comprises s popped emitted merged) :
    ∃ merged', s₀.Comprises s.stepEgress popped emitted merged' := by
  obtain ⟨merged', hosts⟩ := c.hosts.stepEgress
  exact ⟨merged', hosts.comprises (s.stepEgress_frame.1.trans c.count) c.emitters⟩

theorem Comprises.stepNodes (c : s₀.Comprises s popped emitted merged) :
    s₀.Comprises { s with nodes := s.nodes.map stepNode } popped emitted merged := by
  have hosts : ({ s with nodes := s.nodes.map stepNode } : Subnet).Hosts (s₀.RanFrom emitted)
      popped merged :=
    c.hosts.stepNodes fun i n sent ready hn hran n₀ hn₀ => (hran n₀ hn₀).tick ready
  exact hosts.comprises (by simpa using c.count) c.emitters

/-- The router gives a flit to one module, or to none. -/
theorem stepRouter_frame (s : Subnet) :
    s.stepRouter.egress = s.egress ∧ s.stepRouter.arbiter = s.arbiter ∧
      (s.stepRouter.nodes = s.nodes ∨ ∃ i n f, s.nodes[i]? = some n ∧ s.stepRouter.nodes =
        (s.modifyModule i fun m => { m with input := m.input.push f }).nodes) := by
  unfold Subnet.stepRouter
  split
  · split
    · exact ⟨rfl, rfl, Or.inl rfl⟩
    · rename_i f hpeek
      obtain ⟨hnodes, -, hegress, harbiter, -⟩ :=
        ({ s with ingress := s.ingress.pop } : Subnet).stepCollect_frame f
      exact ⟨hegress, harbiter, Or.inl hnodes⟩
  · rename_i i hphase
    cases hstaged : s.staged with
    | nil =>
      have hstep : s.stepForward i = { s with phase := .collect } := by
        simp only [stepForward, hstaged]
      rw [hstep]
      exact ⟨rfl, rfl, Or.inl rfl⟩
    | cons f rest =>
      cases hn : s.nodes[i]? with
      | none =>
        have hstep : s.stepForward i = s := by simp only [stepForward, hstaged, hn]
        rw [hstep]
        exact ⟨rfl, rfl, Or.inl rfl⟩
      | some n =>
        rcases stepForward_cases hn hstaged with ⟨-, hstep⟩ | ⟨-, hstep⟩
        · rw [hstep]
          exact ⟨rfl, rfl, Or.inl rfl⟩
        · rw [hstep]
          exact ⟨rfl, rfl, Or.inr ⟨i, n, f, hn, rfl⟩⟩
  · split
    · exact ⟨rfl, rfl, Or.inl rfl⟩
    · exact ⟨rfl, rfl, Or.inl rfl⟩

theorem Comprises.stepRouter (c : s₀.Comprises s popped emitted merged) :
    s₀.Comprises s.stepRouter popped emitted merged := by
  obtain ⟨hegress, harbiter, hnodes | ⟨i, n, f, -, hnodes⟩⟩ := s.stepRouter_frame
  · exact c.congr hnodes hegress harbiter
  · have hpushed : s₀.Comprises (s.modifyModule i fun m => { m with input := m.input.push f })
        popped emitted merged := by
      exact c.modifyModule_quiet fun n n₀ sent _ _ hran => hran.push f
    exact hpushed.congr hnodes hegress harbiter

theorem Comprises.step (c : s₀.Comprises s popped emitted merged) :
    ∃ merged', s₀.Comprises s.step popped emitted merged' := by
  have c : s₀.Comprises { s with counts.steps := s.counts.steps + 1 } popped emitted merged :=
    c.congr rfl rfl rfl
  obtain ⟨merged', c⟩ := c.stepEgress
  exact ⟨merged', c.stepNodes.stepRouter⟩

/-! ## The other actions -/

theorem Comprises.popEgress (c : s₀.Comprises s popped emitted merged) :
    s₀.Comprises s.popEgress (popped ++ s.peekEgress.toList) emitted merged :=
  c.hosts.popEgress.comprises c.count c.emitters

theorem Comprises.takeInbox (c : s₀.Comprises s popped emitted merged) (a : Address) :
    s₀.Comprises (s.takeInbox a).1 popped emitted merged := by
  rw [takeInbox_fst]
  exact c.modifyModule_quiet fun n n₀ sent _ _ hran => hran.takeInbox

/-- The modules of a subnet that was just built are those of the blueprints, at their addresses. -/
theorem nodes_of_withBackends {link : LinkSettings} {target : TargetSettings}
    {backends : List MapBackend} (h : withBackends link target backends = .ok s) :
    s.nodes.length ≤ 1024 ∧ ∀ i n, s.nodes[i]? = some n → n.out = {} ∧
      ∃ config backend, (config, backend) ∈ blueprints link target backends ∧
        DebugModule.initial (BitVec.ofNat 10 i) config backend link.bufferDepth
          link.maxPacketLen = .ok n.module := by
  obtain ⟨hmodules, -, nodes, hnodes, rfl⟩ := withBackends_eq_ok h
  obtain ⟨hlength, hspecs⟩ := buildNodes_eq_ok hnodes
  refine ⟨?_, fun i n hn => ?_⟩
  · show nodes.length ≤ 1024
    rw [hlength, blueprints, List.length_cons, List.length_zipWith]
    unfold Address.max at hmodules
    omega
  · obtain ⟨hout, spec, hspec, hmodule⟩ := hspecs i n hn
    rw [Nat.zero_add] at hmodule
    exact ⟨hout, spec.1, spec.2, List.mem_of_getElem? hspec, hmodule⟩

theorem comprises_initial (h : ∀ (i : Nat) (n : Node), s.nodes[i]? = some n → n.out = {})
    (hegress : s.egress.flits = []) (harbiter : s.arbiter = {}) : s.Comprises s [] [] {} := by
  refine ⟨⟨by rw [hegress]; rfl, ?_⟩, rfl, by simp, fun i n n₀ hn hn₀ => ?_⟩
  · rw [harbiter]
    exact Arbiter.tracks_initial _
  · obtain rfl := Option.some.inj (hn.symm.trans hn₀)
    rw [h i n hn]
    exact DebugModule.Ran.refl _

theorem Comprises.emitEvent (c : s₀.Comprises s popped emitted merged)
    (hcount : s₀.nodes.length ≤ 1024)
    (haddress : ∀ i (n₀ : Node), s₀.nodes[i]? = some n₀ → n₀.module.address = BitVec.ofNat 10 i)
    (a : Address) (payload : List Word) :
    s₀.Comprises (s.emitEvent a payload).1 popped (emitted ++ (s.emission? a payload).toList)
      merged := by
  cases hm : s.module? a with
  | none =>
    rw [emission?_of_none hm]
    simpa [Subnet.emitEvent, hm] using c
  | some m =>
    obtain ⟨n, hn, rfl⟩ := Option.map_eq_some_iff.mp hm
    have hplace : a.toNat < s₀.nodes.length := by
      rw [← c.count]
      exact (List.getElem?_eq_some_iff.mp hn).1
    have hown : n.module.address = a := by
      have hn₀ := List.getElem?_eq_getElem hplace
      rw [(c.modules _ n _ hn hn₀).address, haddress _ _ hn₀]
      exact ((address_eq_iff a.isLt).mpr rfl).symm
    have hsrc : ∀ e ∈ (n.module.emission? payload).toList, e.src = a := by
      intro e he
      rw [((n.module.emitEvent_eq payload).2 e (Option.mem_toList.mp he)).1, hown]
    rw [emission?_of_module hm hown, emitEvent_fst]
    refine c.modifyModule (fun e he => ?_) (fun j hj hne => ?_) fun n' n₀ sent hn' _ hran => ?_
    · rcases List.mem_append.mp he with he | he
      · exact c.emitters e he
      · rw [hsrc e he]
        exact hplace
    · have hnone : (n.module.emission? payload).toList.filter
          (fun e => e.src = BitVec.ofNat 10 j) = [] := by
        refine List.filter_eq_nil_iff.mpr fun e he => ?_
        have hlt : j < 1024 := by
          have hlength := c.count
          omega
        rw [decide_eq_true_eq, hsrc e he, address_eq_iff hlt]
        exact hne
      rw [List.filter_append, hnone, List.append_nil]
    · obtain rfl := Option.some.inj (hn.symm.trans hn')
      have hall : (n.module.emission? payload).toList.filter
          (fun e => e.src = BitVec.ofNat 10 a.toNat) = (n.module.emission? payload).toList := by
        refine List.filter_eq_self.mpr fun e he => ?_
        rw [decide_eq_true_eq, hsrc e he, address_eq_iff a.isLt]
      rw [List.filter_append, hall]
      exact hran.emitEvent payload

end Subnet

namespace SubnetRun

theorem ofActions_snoc (s : Subnet) (actions : List SubnetAction) (action : SubnetAction) :
    ofActions s (actions ++ [action]) = (ofActions s actions).act action := by
  rw [ofActions, List.foldl_append]
  rfl

variable {s₀ : Subnet} {r : SubnetRun} {emitted : List Event} {merged : Passage}

theorem comprises_act (c : s₀.Comprises r.subnet r.popped emitted merged)
    (hcount : s₀.nodes.length ≤ 1024)
    (haddress : ∀ i (n₀ : Node), s₀.nodes[i]? = some n₀ → n₀.module.address = BitVec.ofNat 10 i)
    (action : SubnetAction) :
    ∃ merged', s₀.Comprises (r.act action).subnet (r.act action).popped
      (emitted ++ (r.emission? action).toList) merged' := by
  have hnothing : emitted ++ (none : Option Event).toList = emitted := List.append_nil _
  cases action with
  | emit a payload => exact ⟨merged, c.emitEvent hcount haddress a payload⟩
  | push f =>
    simp only [emission?, hnothing]
    exact ⟨merged, c.congr rfl rfl rfl⟩
  | step =>
    simp only [emission?, hnothing]
    exact c.step
  | pop =>
    simp only [emission?, hnothing]
    exact ⟨merged, c.popEgress⟩
  | takeInbox a =>
    simp only [emission?, hnothing]
    exact ⟨merged, c.takeInbox a⟩

/-- In every state that a run reaches, the modules are those of runs of their own. -/
theorem comprises {link : LinkSettings} {target : TargetSettings} {backends : List MapBackend}
    {s : Subnet} (h : Subnet.withBackends link target backends = .ok s)
    (actions : List SubnetAction) :
    ∃ merged, s.Comprises (ofActions s actions).subnet (ofActions s actions).popped
      (emissions { subnet := s } actions) merged := by
  obtain ⟨hcount, hnodes⟩ := Subnet.nodes_of_withBackends h
  have haddress : ∀ i (n : Node), s.nodes[i]? = some n → n.module.address = BitVec.ofNat 10 i := by
    intro i n hn
    obtain ⟨-, config, backend, -, hmodule⟩ := hnodes i n hn
    exact DebugModule.address_of_initial hmodule
  induction actions using List.reverseRecOn with
  | nil =>
    obtain ⟨-, -, nodes, -, rfl⟩ := Subnet.withBackends_eq_ok h
    exact ⟨{}, Subnet.comprises_initial (fun i n hn => (hnodes i n hn).1) rfl rfl⟩
  | append_singleton actions action ih =>
    obtain ⟨merged, c⟩ := ih
    rw [ofActions_snoc, emissions_snoc]
    exact comprises_act c hcount haddress action

end SubnetRun

end ProbeNet
