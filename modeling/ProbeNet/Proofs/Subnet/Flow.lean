import ProbeNet.Proofs.Module.Flow
import ProbeNet.Proofs.Subnet.Router

/-!
# The flits inside a subnet

A host uses a subnet as it likes: it presents flits, takes flits, makes
modules emit events and empties their inboxes, and in between the subnet takes
its steps.  A `SubnetRun` keeps account of the flits that went in and out.

* `Subnet.Merges` says what has gone through the arbiter; `Merges.filter_whole` finds
  the packets of a module behind it.
* `Subnet.Traces` says where every flit is, `Traces.act` that each action keeps
  this, and `SubnetRun.traces` that it holds in every state that a run reaches.
-/

namespace ProbeNet

open Register

/-! ## Runs -/

/-- What happens to a subnet. -/
inductive SubnetAction where
  /-- The host presents a flit. -/
  | push (f : Flit)
  /-- The subnet takes a step. -/
  | step
  /-- The host takes the flit that the subnet shows. -/
  | pop
  /-- A module emits an event. -/
  | emit (a : Address) (payload : List Word)
  /-- Someone empties the inbox of a module. -/
  | takeInbox (a : Address)

/-- A subnet, the flits that it has accepted and those that have left it. -/
structure SubnetRun where
  subnet : Subnet
  accepted : List Flit := []
  popped : List Flit := []

namespace SubnetRun

/-- The run after one more action.  A flit that is presented to a full ingress
stays with the host. -/
def act (r : SubnetRun) : SubnetAction → SubnetRun
  | .push f =>
    { r with
      subnet := r.subnet.pushIngress f
      accepted := r.accepted ++ if r.subnet.ingressReady then [f] else [] }
  | .step => { r with subnet := r.subnet.step }
  | .pop =>
    { r with
      subnet := r.subnet.popEgress
      popped := r.popped ++ r.subnet.peekEgress.toList }
  | .emit a payload => { r with subnet := (r.subnet.emitEvent a payload).1 }
  | .takeInbox a => { r with subnet := (r.subnet.takeInbox a).1 }

/-- The run of some actions on a subnet. -/
def ofActions (s : Subnet) (actions : List SubnetAction) : SubnetRun :=
  actions.foldl act { subnet := s }

end SubnetRun

/-- A node whose module has taken the flits `received` and whose output link
has been emptied of the flits `sent`. -/
def Node.Traces (u : RegisterUnit) (n : Node) (limit : Nat) (received sent : List Flit) : Prop :=
  ∃ depth, limit ≤ depth ∧ n.module.Flows u depth received (sent ++ n.out.slot.toList)

namespace Subnet

/-- The outputs that the arbiter of a subnet looks at. -/
def outputs (s : Subnet) : List (Option Flit) := s.nodes.map fun n => n.out.slot

/-- The subnet has accepted the flits `accepted`, of which the router has taken
`taken`; the arbiter has let `merged` through, of which `popped` has left.
The modules were the `units` at the start. -/
structure Traces (units : List RegisterUnit) (limit : Nat) (s : Subnet)
    (accepted popped taken : List Flit) (merged : Passage) : Prop where
  limit : s.maxPacketLen = limit
  ingress : accepted = taken ++ s.ingress.flits
  ingressAdmission : s.ingress.admission = .streaming
  egress : merged.whole = popped ++ s.egress.flits
  egressAdmission : s.egress.admission = .streaming
  egressDepth : 0 < s.egress.depth
  arbiter : s.arbiter.Tracks merged s.outputs
  router : s.Routes taken
  count : s.nodes.length = units.length
  nodes : ∀ i n u, s.nodes[i]? = some n → units[i]? = some u →
    ∃ received, n.Traces u s.maxPacketLen received (merged.share i) ∧
      received ++ s.pendingFor i = deliveries s.maxPacketLen i taken

variable {units : List RegisterUnit} {limit : Nat} {s : Subnet}
  {accepted popped taken : List Flit} {merged : Passage}

theorem headOf_outputs {i : Nat} {f : Flit} (h : Arbiter.headOf s.outputs i = some f) :
    ∃ n, s.nodes[i]? = some n ∧ n.out.slot = some f := by
  unfold Arbiter.headOf outputs at h
  rw [List.getElem?_map] at h
  cases hn : s.nodes[i]? with
  | none => simp [hn] at h
  | some n => exact ⟨n, rfl, by simpa [hn] using h⟩

/-- The arbiter presents a flit of a module, which moves if there is room for
it; or nothing happens. -/
theorem stepEgress_cases (s : Subnet) :
    (s.stepEgress = s ∧ ∀ i, s.arbiter.granted = none ∨ s.arbiter.granted = some i →
      Arbiter.headOf s.outputs i = none) ∨
    ∃ arbiter i f n, s.nodes[i]? = some n ∧ n.out.slot = some f ∧
      (s.arbiter.granted = none ∨ s.arbiter.granted = some i) ∧
      arbiter.granted = (if s.egress.ready && f.last then none else some i) ∧
      s.stepEgress =
        if s.egress.ready then
          { s with
            arbiter
            nodes := s.nodes.modify i fun n => { n with out := n.out.pop }
            egress := s.egress.push f }
        else { s with arbiter } := by
  rcases s.arbiter.tick_cases s.outputs s.egress.ready with
    ⟨htick, hnone⟩ | ⟨i, f, hhead, hgranted, hoffered, hgranted'⟩
  · refine Or.inl ⟨?_, hnone⟩
    unfold outputs at htick
    simp only [stepEgress, htick, Option.map_none, Buffer.offer]
  · obtain ⟨n, hn, hslot⟩ := headOf_outputs hhead
    refine Or.inr ⟨_, i, f, n, hn, hslot, hgranted, hgranted', ?_⟩
    unfold outputs at hoffered ⊢
    simp only [stepEgress, hoffered, Option.map_some, Buffer.offer]
    cases hready : s.egress.ready with
    | true => rfl
    | false => simp [Buffer.push_of_not_ready hready]

/-! ## The arbiter and the modules -/

/-- The arbiter does not look into the modules. -/
theorem module_stepEgress (s : Subnet) (i : Nat) :
    s.stepEgress.nodes[i]?.map Node.module = s.nodes[i]?.map Node.module := by
  rcases s.stepEgress_cases with ⟨hstep, -⟩ | ⟨arbiter, j, f, n, -, -, -, -, hstep⟩
  · rw [hstep]
  · rw [hstep]
    split
    · rw [List.getElem?_modify]
      cases s.nodes[i]? with
      | none => rfl
      | some n => by_cases hij : j = i <;> simp [hij]
    · rfl

theorem headOf_outputs_eq (s : Subnet) (i : Nat) :
    Arbiter.headOf s.outputs i = (s.nodes[i]?.map fun n => n.out.slot).join := by
  simp [Arbiter.headOf, outputs]

/-- The arbiter has let `merged` through, of which `popped` has left the subnet. -/
structure Merges (s : Subnet) (popped : List Flit) (merged : Passage) : Prop where
  egress : merged.whole = popped ++ s.egress.flits
  arbiter : s.arbiter.Tracks merged s.outputs

/-- The arbiter takes a flit from the output link of a module, or none.  What a module has
put on its link is still there or has gone through. -/
theorem Merges.stepEgress (h : s.Merges popped merged) :
    ∃ merged', s.stepEgress.Merges popped merged' ∧
      ∀ i n', s.stepEgress.nodes[i]? = some n' → ∃ n, s.nodes[i]? = some n ∧
        n'.module = n.module ∧
        merged'.share i ++ n'.out.slot.toList = merged.share i ++ n.out.slot.toList := by
  rcases s.stepEgress_cases with
    ⟨hstep, -⟩ | ⟨arbiter, i, f, n, hn, hslot, hgranted, hgranted', hstep⟩
  · rw [hstep]
    exact ⟨merged, h, fun i n hn => ⟨n, hn, rfl, rfl⟩⟩
  · have hhead : Arbiter.headOf s.outputs i = some f := by
      rw [headOf_outputs_eq, hn]
      simpa using hslot
    rw [hstep]
    cases hready : s.egress.ready with
    | false =>
      refine ⟨merged, ⟨h.egress, h.arbiter.hold hhead hgranted ?_⟩, fun j n hn => ⟨n, hn, rfl, rfl⟩⟩
      simpa [hready] using hgranted'
    | true =>
      have howner := h.arbiter.owner_of_granted hgranted
      refine ⟨merged.pass i f, ⟨by simp [h.egress, hready], ?_⟩, fun j n' hn' => ?_⟩
      · exact h.arbiter.pass hhead (by simpa [hready] using hgranted') (by simp [outputs])
      · simp only [if_true, List.getElem?_modify] at hn'
        obtain ⟨m, hm, rfl⟩ := Option.map_eq_some_iff.mp hn'
        refine ⟨m, hm, by split <;> rfl, ?_⟩
        by_cases hij : i = j
        · subst hij
          obtain rfl := Option.some.inj (hn.symm.trans hm)
          rw [Passage.share_pass_self h.arbiter.sound f howner]
          simp [hslot, Link.pop]
        · rw [Passage.share_pass_of_ne f howner hij]
          simp [hij]

/-- When the modules take their steps, their output links keep what is on them. -/
theorem Merges.stepNodes (h : s.Merges popped merged) :
    ({ s with nodes := s.nodes.map stepNode } : Subnet).Merges popped merged := by
  refine ⟨h.egress, h.arbiter.mono (by simp [outputs]) fun i hshown => ?_⟩
  rw [headOf_outputs_eq] at hshown ⊢
  simp only [List.getElem?_map]
  cases hn : s.nodes[i]? with
  | none => simp [hn] at hshown
  | some n =>
    have hslot : n.out.slot.isSome = true := by simpa [hn] using hshown
    simpa [stepNode, Link.offer_of_isSome hslot] using hslot

/-- The flit that the host takes has gone through the arbiter. -/
theorem Merges.popEgress (h : s.Merges popped merged) :
    s.popEgress.Merges (popped ++ s.peekEgress.toList) merged := by
  refine ⟨?_, h.arbiter⟩
  rw [h.egress, List.append_assoc]
  exact congrArg (popped ++ ·) (Buffer.flits_popIf s.egress true).symm

/-- When the packets of a class carry the addresses of the modules that send them, they are
found behind the arbiter by their address. -/
theorem Merges.filter_whole (h : s.Merges popped merged) (hcount : s.nodes.length ≤ 1024)
    {c : PacketClass}
    (hsrc : ∀ j < s.nodes.length, ∀ p ∈ Packet.ofStream (merged.share j), p.packetClass = c →
      p.src = BitVec.ofNat 10 j) {i : Nat} (hi : i < 1024) :
    (Packet.ofStream merged.whole).filter
        (fun p => decide (p.packetClass = c) && decide (p.src = BitVec.ofNat 10 i)) =
      (Packet.ofStream (merged.share i)).filter fun p => p.packetClass = c := by
  have hlength : s.outputs.length = s.nodes.length := List.length_map _
  have hown : (Packet.ofStream (merged.share i)).filter
        (fun p => decide (p.packetClass = c) && decide (p.src = BitVec.ofNat 10 i)) =
      (Packet.ofStream (merged.share i)).filter fun p => p.packetClass = c := by
    refine List.filter_congr fun p hp => ?_
    by_cases hplace : i < s.nodes.length
    · by_cases hclass : p.packetClass = c
      · simp [hclass, hsrc i hplace p hp hclass]
      · simp [hclass]
    · rw [h.arbiter.share_of_le (hlength ▸ Nat.not_lt.mp hplace)] at hp
      cases hp
  rw [← hown]
  -- What another module has sent carries the address of that module.
  refine h.arbiter.sound.filter_whole _ i fun j hne r hr p hp => ?_
  have hj : j < s.nodes.length := hlength ▸ h.arbiter.lt_of_mem_runsOf hr
  have hmem : p ∈ Packet.ofStream (merged.share j) := by
    rw [Packet.ofStream, h.arbiter.sound.runs_share]
    exact List.mem_filterMap.mpr ⟨r, hr, by rw [hp]; rfl⟩
  by_cases hclass : p.packetClass = c
  · have hother : p.src ≠ BitVec.ofNat 10 i := by
      rw [hsrc j hj p hmem hclass, Ne, address_eq_iff hi, BitVec.toNat_ofNat,
        Nat.mod_eq_of_lt (Nat.lt_of_lt_of_le hj hcount)]
      exact hne
    simp [hother]
  · simp [hclass]

theorem Traces.merges (t : s.Traces units limit accepted popped taken merged) :
    s.Merges popped merged := ⟨t.egress, t.arbiter⟩

/-- The arbiter changes neither the router nor the number of modules. -/
theorem stepEgress_frame (s : Subnet) :
    s.stepEgress.nodes.length = s.nodes.length ∧ s.stepEgress.phase = s.phase ∧
      s.stepEgress.staged = s.staged ∧ s.stepEgress.egress.admission = s.egress.admission ∧
      s.stepEgress.egress.depth = s.egress.depth := by
  rcases s.stepEgress_cases with ⟨hstep, -⟩ | ⟨arbiter, i, f, n, -, -, -, -, hstep⟩
  · rw [hstep]
    exact ⟨rfl, rfl, rfl, rfl, rfl⟩
  · rw [hstep]
    split
    · exact ⟨by simp, rfl, rfl, by simp, by simp⟩
    · exact ⟨rfl, rfl, rfl, rfl, rfl⟩

theorem Traces.stepEgress (t : s.Traces units limit accepted popped taken merged) :
    ∃ merged', s.stepEgress.Traces units limit accepted popped taken merged' := by
  obtain ⟨merged', hmerges, hnodes⟩ := t.merges.stepEgress
  obtain ⟨hcount, hphase, hstaged, hadmission, hdepth⟩ := s.stepEgress_frame
  refine ⟨merged', t.limit, t.ingress, t.ingressAdmission, hmerges.egress,
    hadmission.trans t.egressAdmission, hdepth ▸ t.egressDepth, hmerges.arbiter, ?_,
    hcount.trans t.count, fun i n' u hn' hu => ?_⟩
  · exact t.router.congr hphase hstaged hcount rfl
  · obtain ⟨n, hn, hmodule, hsent⟩ := hnodes i n' hn'
    obtain ⟨received, ⟨depth, hdepth, hflows⟩, hreceived⟩ := t.nodes i n u hn hu
    refine ⟨received, ⟨depth, hdepth, ?_⟩, ?_⟩
    · rw [hmodule, hsent]
      exact hflows
    · unfold pendingFor at hreceived ⊢
      rw [hphase, hstaged]
      exact hreceived

/-- The modules take their steps, each with its own output link. -/
theorem Traces.stepNodes (t : s.Traces units limit accepted popped taken merged) :
    ({ s with nodes := s.nodes.map stepNode } : Subnet).Traces units limit accepted popped taken
      merged := by
  refine { t with
    arbiter := t.merges.stepNodes.arbiter
    router := ?_
    count := by simpa using t.count
    nodes := ?_ }
  · exact t.router.congr rfl rfl (by simp) rfl
  · intro i n' u hn' hu
    rw [List.getElem?_map] at hn'
    obtain ⟨n, hn, rfl⟩ := Option.map_eq_some_iff.mp hn'
    obtain ⟨received, ⟨depth, hdepth, hflows⟩, hreceived⟩ := t.nodes i n u hn hu
    refine ⟨received, ⟨depth, hdepth, ?_⟩, hreceived⟩
    have hstep := hflows.tick n.out.ready
    simpa [stepNode] using hstep

/-! ## The router -/

@[simp] theorem outputs_modifyModule (s : Subnet) (i : Nat)
    (g : DebugModule ModuleBackend → DebugModule ModuleBackend) :
    (s.modifyModule i g).outputs = s.outputs := by
  refine List.ext_getElem? fun j => ?_
  simp only [outputs, modifyModule, List.getElem?_map, List.getElem?_modify]
  by_cases hij : i = j <;> cases s.nodes[j]? <;> simp [hij]

/-- The router takes a flit from the ingress while it has nothing to hand over. -/
theorem Traces.takeIngress (t : s.Traces units limit accepted popped taken merged) {f : Flit}
    (hpeek : s.ingress.peek = some f) (hnone : ∀ i, s.phase ≠ .forward i) :
    s.stepRouter.Traces units limit accepted popped (taken ++ [f]) merged := by
  obtain ⟨hroutes, hpending⟩ := t.router.take hnone hpeek
  obtain ⟨staged, phase, counts, hstep⟩ := t.router.take_frame hnone hpeek
  rw [hstep] at hroutes hpending ⊢
  refine { t with
    ingress := ?_
    ingressAdmission := by simpa using t.ingressAdmission
    router := hroutes
    nodes := fun i n u hn hu => ?_ }
  · rw [t.ingress, Buffer.flits_of_peek hpeek]
    simp
  · obtain ⟨received, htraces, hreceived⟩ := t.nodes i n u hn hu
    refine ⟨received, htraces, ?_⟩
    rw [pendingFor_of_not_forward hnone, List.append_nil] at hreceived
    rw [hreceived]
    exact hpending i (List.getElem?_eq_some_iff.mp hn).1

/-- The router hands a flit over, if the module has room for it. -/
theorem Traces.stepForward (t : s.Traces units limit accepted popped taken merged) {i : Nat}
    (hphase : s.phase = .forward i) :
    (s.stepForward i).Traces units limit accepted popped taken merged := by
  obtain ⟨hi, -, hrun⟩ := t.router.of_forward hphase
  have hn := List.getElem?_eq_getElem hi
  obtain ⟨f, rest, hstaged⟩ := List.exists_cons_of_ne_nil hrun.ne_nil
  rcases stepForward_cases hn hstaged with ⟨-, hstep⟩ | ⟨hready, hstep⟩
  · rw [hstep]
    exact t
  · obtain ⟨hroutes, hpending⟩ := t.router.hand hphase hn hstaged hready
    rw [hstep] at hroutes hpending ⊢
    refine { t with
      arbiter := ?_
      router := hroutes
      count := by simpa using t.count
      nodes := fun j n' u hn' hu => ?_ }
    · have harbiter := t.arbiter
      rwa [← outputs_modifyModule s i fun m => { m with input := m.input.push f }] at harbiter
    · obtain ⟨m, hm, rfl⟩ := getElem?_modifyModule
        (show (s.modifyModule i fun m => { m with input := m.input.push f }).nodes[j]? = some n'
          from hn')
      obtain ⟨received, ⟨depth, hdepth, hflows⟩, hreceived⟩ := t.nodes j m u hm hu
      rw [hpending j, ← List.append_assoc] at hreceived
      refine ⟨received ++ if i = j then [f] else [], ⟨depth, hdepth, ?_⟩, hreceived⟩
      by_cases hij : i = j
      · subst hij
        obtain rfl := Option.some.inj (hn.symm.trans hm)
        have hpush := hflows.push f
        rw [hready, if_pos rfl] at hpush
        simpa using hpush
      · simpa [hij] using hflows

/-- A step of the router. -/
theorem Traces.stepRouter (t : s.Traces units limit accepted popped taken merged) :
    ∃ taken', s.stepRouter.Traces units limit accepted popped taken' merged := by
  rcases s.stepRouter_cases with ⟨i, hphase, hstep⟩ | ⟨hnone, ⟨f, hpeek⟩ | ⟨-, hstep⟩⟩
  · rw [hstep]
    exact ⟨taken, t.stepForward hphase⟩
  · exact ⟨taken ++ [f], t.takeIngress hpeek hnone⟩
  · rw [hstep]
    exact ⟨taken, t⟩

/-! ## What happens to a subnet -/

/-- An idle subnet holds no flit outside its modules, which are idle too. -/
theorem isIdle_iff {s : Subnet} : s.isIdle = true ↔
    s.ingress.flits = [] ∧ s.egress.flits = [] ∧ s.staged = [] ∧ s.phase = .collect ∧
      (∀ n ∈ s.nodes, n.out.slot = none) ∧ ∀ n ∈ s.nodes, n.module.isIdle = true := by
  simp only [isIdle, Bool.and_eq_true, List.all_eq_true, Buffer.isEmpty, List.isEmpty_iff,
    Link.isValid, Bool.not_eq_true', Option.isSome_eq_false_iff, Option.isNone_iff_eq_none,
    beq_iff_eq, and_assoc]

/-- In a subnet that is idle nothing waits in the egress, on a link or in a module. -/
theorem idle_parts (hidle : s.isIdle = true) :
    s.egress.flits = [] ∧ ∀ (i : Nat) (n : Node), s.nodes[i]? = some n →
      n.out.slot = none ∧ n.module.isIdle = true := by
  obtain ⟨-, hegress, -, -, hlinks, hmodules⟩ := isIdle_iff.mp hidle
  refine ⟨hegress, fun i n hn => ?_⟩
  have hmem := List.mem_of_getElem? hn
  exact ⟨hlinks n hmem, hmodules n hmem⟩

/-- Nothing that a module does without sending or taking flits matters. -/
theorem Traces.modifyModule (t : s.Traces units limit accepted popped taken merged) {i : Nat}
    {g : DebugModule ModuleBackend → DebugModule ModuleBackend}
    (hg : ∀ n u depth received sent, s.nodes[i]? = some n → n.module.Flows u depth received sent →
      (g n.module).Flows u depth received sent) :
    (s.modifyModule i g).Traces units limit accepted popped taken merged := by
  refine { t with
    arbiter := by rw [outputs_modifyModule]; exact t.arbiter
    router := ?_
    count := by simpa using t.count
    nodes := fun j n' u hn' hu => ?_ }
  · exact t.router.congr rfl rfl (by simp) rfl
  · obtain ⟨n, hn, rfl⟩ := getElem?_modifyModule hn'
    obtain ⟨received, ⟨depth, hdepth, hflows⟩, hreceived⟩ := t.nodes j n u hn hu
    refine ⟨received, ⟨depth, hdepth, ?_⟩, hreceived⟩
    by_cases hij : i = j
    · subst hij
      simpa using hg n u depth received _ hn hflows
    · simpa [hij] using hflows

theorem Traces.step (t : s.Traces units limit accepted popped taken merged) :
    ∃ taken' merged', s.step.Traces units limit accepted popped taken' merged' := by
  have t : ({ s with counts.steps := s.counts.steps + 1 } : Subnet).Traces units limit accepted
      popped taken merged := { t with }
  obtain ⟨merged', t⟩ := t.stepEgress
  obtain ⟨taken', t⟩ := t.stepNodes.stepRouter
  exact ⟨taken', merged', t⟩

theorem Traces.pushIngress (t : s.Traces units limit accepted popped taken merged) (f : Flit) :
    (s.pushIngress f).Traces units limit (accepted ++ if s.ingressReady then [f] else []) popped
      taken merged := by
  refine { t with
    ingress := ?_
    ingressAdmission := by simpa [Subnet.pushIngress] using t.ingressAdmission }
  show _ = taken ++ (s.ingress.push f).flits
  rw [Buffer.flits_push, t.ingress, List.append_assoc]
  rfl

theorem Traces.popEgress (t : s.Traces units limit accepted popped taken merged) :
    s.popEgress.Traces units limit accepted (popped ++ s.peekEgress.toList) taken merged := by
  exact { t with
    egress := t.merges.popEgress.egress
    egressAdmission := by simpa [Subnet.popEgress] using t.egressAdmission
    egressDepth := by simpa [Subnet.popEgress] using t.egressDepth }

theorem Traces.emitEvent (t : s.Traces units limit accepted popped taken merged) (a : Address)
    (payload : List Word) :
    (s.emitEvent a payload).1.Traces units limit accepted popped taken merged := by
  rw [emitEvent_fst]
  exact t.modifyModule fun n u depth received sent _ hflows => hflows.emitEvent payload

theorem Traces.takeInbox (t : s.Traces units limit accepted popped taken merged) (a : Address) :
    (s.takeInbox a).1.Traces units limit accepted popped taken merged := by
  rw [takeInbox_fst]
  exact t.modifyModule fun n u depth received sent _ hflows => hflows.takeInbox

end Subnet

/-! ## Reachable states -/

namespace Subnet

/-- The register units that a subnet starts with. -/
def units (link : LinkSettings) (target : TargetSettings) (backends : List MapBackend) :
    List RegisterUnit :=
  (blueprints link target backends).map fun b => RegisterUnit.initial b.1 b.2

/-- The modules of a subnet have the addresses from the first one on. -/
theorem buildNodes_eq_ok {link : LinkSettings} {address : Nat}
    {specs : List (EngineConfig × ModuleBackend)} {nodes : List Node}
    (h : buildNodes link address specs = .ok nodes) :
    nodes.length = specs.length ∧ ∀ i n, nodes[i]? = some n → n.out = {} ∧
      ∃ spec, specs[i]? = some spec ∧
        DebugModule.initial (BitVec.ofNat 10 (address + i)) spec.1 spec.2 link.bufferDepth
          link.maxPacketLen = .ok n.module := by
  induction specs generalizing address nodes with
  | nil =>
    obtain rfl := Except.ok.inj h
    exact ⟨rfl, by simp⟩
  | cons spec specs ih =>
    obtain ⟨config, backend⟩ := spec
    simp only [buildNodes, bind, Except.bind] at h
    split at h
    · cases h
    · rename_i module hmodule
      split at h
      · cases h
      · rename_i rest hrest
        obtain rfl := Except.ok.inj h
        obtain ⟨hlength, hnodes⟩ := ih hrest
        refine ⟨by simp [hlength], fun i n hn => ?_⟩
        cases i with
        | zero =>
          obtain rfl := Option.some.inj hn
          exact ⟨rfl, _, rfl, hmodule⟩
        | succ i =>
          obtain ⟨hout, spec, hspec, hinitial⟩ := hnodes i n hn
          rw [Nat.add_right_comm, Nat.add_assoc] at hinitial
          exact ⟨hout, spec, hspec, hinitial⟩

/-- What a subnet that could be built looks like. -/
theorem withBackends_eq_ok {link : LinkSettings} {target : TargetSettings}
    {backends : List MapBackend} {s : Subnet} (h : withBackends link target backends = .ok s) :
    target.modules.length + 1 ≤ Address.max ∧ 0 < link.bufferDepth ∧
      ∃ nodes, buildNodes link 0 (blueprints link target backends) = .ok nodes ∧
        s = { nodes
              maxPacketLen := link.maxPacketLen
              ingress := .empty link.bufferDepth .streaming
              egress := .empty link.bufferDepth .streaming } := by
  simp only [withBackends, bind, Except.bind, throw, throwThe, MonadExceptOf.throw, pure,
    Except.pure, Buffer.streaming] at h
  split_ifs at h with hbackends hmodules hdepth
  · split at h <;> cases h
  · split at h
    · cases h
    · rename_i nodes hnodes
      exact ⟨Nat.not_lt.mp hmodules, Nat.pos_of_ne_zero hdepth, nodes, hnodes,
        (Except.ok.inj h).symm⟩

/-- A subnet that was just built has seen no flit. -/
theorem traces_initial {link : LinkSettings} {target : TargetSettings}
    {backends : List MapBackend} {s : Subnet} (h : withBackends link target backends = .ok s) :
    s.Traces (units link target backends) link.maxPacketLen [] [] [] {} := by
  obtain ⟨-, hdepth, nodes, hnodes, rfl⟩ := withBackends_eq_ok h
  obtain ⟨hlength, hspecs⟩ := buildNodes_eq_ok hnodes
  refine ⟨rfl, rfl, rfl, rfl, rfl, hdepth, Arbiter.tracks_initial _, ⟨rfl, Nat.zero_le _⟩, ?_, ?_⟩
  · rw [units, List.length_map]
    exact hlength
  · intro i n u hn hu
    obtain ⟨hout, spec, hspec, hmodule⟩ := hspecs i n hn
    rw [units, List.getElem?_map, hspec] at hu
    obtain rfl := Option.some.inj hu
    obtain ⟨hm, hroom⟩ := DebugModule.traces_initial hmodule
    refine ⟨[], ⟨_, hroom, _, hm, rfl, rfl, ?_⟩, rfl⟩
    rw [hout]
    rfl

end Subnet

/-- Whatever happens to a subnet, its flits stay where they can be found. -/
theorem SubnetRun.traces_act {units : List RegisterUnit} {limit : Nat} {r : SubnetRun}
    (h : ∃ taken merged, r.subnet.Traces units limit r.accepted r.popped taken merged)
    (action : SubnetAction) :
    ∃ taken merged, (r.act action).subnet.Traces units limit (r.act action).accepted
      (r.act action).popped taken merged := by
  obtain ⟨taken, merged, t⟩ := h
  cases action with
  | push f => exact ⟨taken, merged, t.pushIngress f⟩
  | step => exact t.step
  | pop => exact ⟨taken, merged, t.popEgress⟩
  | emit a payload => exact ⟨taken, merged, t.emitEvent a payload⟩
  | takeInbox a => exact ⟨taken, merged, t.takeInbox a⟩

/-- In every state that a run reaches, every flit can be found. -/
theorem SubnetRun.traces {link : LinkSettings} {target : TargetSettings}
    {backends : List MapBackend} {s : Subnet}
    (h : Subnet.withBackends link target backends = .ok s) (actions : List SubnetAction) :
    ∃ taken merged, (ofActions s actions).subnet.Traces (Subnet.units link target backends)
      link.maxPacketLen (ofActions s actions).accepted (ofActions s actions).popped taken
      merged := by
  unfold ofActions
  induction actions using List.reverseRecOn with
  | nil => exact ⟨[], {}, Subnet.traces_initial h⟩
  | append_singleton actions action ih =>
    rw [List.foldl_append]
    exact traces_act ih action

end ProbeNet
