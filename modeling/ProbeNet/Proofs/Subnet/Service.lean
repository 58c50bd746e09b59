import ProbeNet.Proofs.Subnet.Answers
import ProbeNet.Proofs.Subnet.Progress

/-!
# A subnet answers

A host that has ended its last packet and takes what the subnet shows gets the
answer to every request that it has made: the subnet comes to rest, and at rest it
has sent all the answers of its register units.

* `Traces.answers_of_isIdle` says what a subnet at rest has sent.
* `SubnetRun.settle` are the actions of a host that waits, and
  `SubnetRun.answers_settled` what they lead to.
* `SubnetRun.accepted_ofActions_push` says that a new subnet accepts as many flits as its ingress
  has room for.
-/

namespace ProbeNet

open Register

namespace Subnet

variable {units : List RegisterUnit} {limit : Nat} {s : Subnet}
  {accepted popped taken : List Flit} {merged : Passage} {i : Nat} {u : RegisterUnit}

/-- The register packets of a module that have left a subnet at rest are the answers to
all the requests for it. -/
theorem Traces.answers_of_isIdle (t : s.Traces units limit accepted popped taken merged)
    (hcount : units.length ≤ 1024) (hu : units[i]? = some u) (hidle : s.isIdle = true) :
    registerPacketsOf i (Packet.ofStream popped) =
      u.answers (requestsTo limit i (Packet.ofStream accepted)) := by
  obtain ⟨hingress, hegress, -, hphase, -⟩ := isIdle_iff.mp hidle
  obtain ⟨hi, -⟩ := List.getElem?_eq_some_iff.mp hu
  have hn := List.getElem?_eq_getElem (t.count ▸ hi : i < s.nodes.length)
  obtain ⟨hslot, hmodule⟩ := (idle_parts hidle).2 i _ hn
  obtain ⟨received, ⟨depth, -, hflows⟩, hreceived⟩ := t.nodes i _ u hn hu
  rw [hslot, Option.toList_none, List.append_nil] at hflows
  -- Nothing is left in the ingress, in the router and in the egress.
  have hpopped : popped = merged.whole := by
    rw [t.egress, hegress, List.append_nil]
  have haccepted : accepted = taken := by
    rw [t.ingress, hingress, List.append_nil]
  have hdelivered : received = deliveries limit i accepted := by
    rw [pendingFor_of_not_forward (by simp [hphase]), List.append_nil, t.limit] at hreceived
    rw [hreceived, haccepted]
  rw [hpopped, t.registerPacketsOf_whole hcount hi, hflows.answers_of_isIdle hmodule, hdelivered,
    ← u.answers_filter, requests_deliveries (Nat.lt_of_lt_of_le hi hcount)]

end Subnet

namespace SubnetRun

/-! ## A host that waits -/

/-- The host lets the subnet take steps and takes what it shows. -/
def settle (n : Nat) : List SubnetAction := (List.replicate n [.step, .pop]).flatten

theorem foldl_settle (r : SubnetRun) (n : Nat) :
    ((settle n).foldl act r).subnet = Subnet.rounds n r.subnet ∧
      ((settle n).foldl act r).accepted = r.accepted := by
  induction n generalizing r with
  | zero => exact ⟨rfl, rfl⟩
  | succ n ih =>
    obtain ⟨hsubnet, haccepted⟩ := ih ((r.act .step).act .pop)
    exact ⟨hsubnet, haccepted⟩

theorem ofActions_append (s : Subnet) (actions more : List SubnetAction) :
    ofActions s (actions ++ more) = more.foldl act (ofActions s actions) := List.foldl_append

variable {link : LinkSettings} {target : TargetSettings} {backends : List MapBackend} {s : Subnet}

/-- When the host has ended its last packet and waits long enough, the subnet comes to rest and
has answered every request. -/
theorem answers_settled (hs : Subnet.withBackends link target backends = .ok s)
    (actions : List SubnetAction)
    (hended : ∀ f ∈ (ofActions s actions).accepted.getLast?, f.last = true) :
    ∃ n, let r := ofActions s (actions ++ settle n)
      r.subnet.isIdle = true ∧ r.accepted = (ofActions s actions).accepted ∧
      ∀ i config backend, (Subnet.blueprints link target backends)[i]? = some (config, backend) →
        Subnet.registerPacketsOf i (Packet.ofStream r.popped) =
          (RegisterUnit.initial config backend).answers
            (Subnet.requestsTo link.maxPacketLen i (Packet.ofStream r.accepted)) := by
  obtain ⟨taken, merged, t⟩ := traces hs actions
  obtain ⟨n, hrest⟩ := t.comes_to_rest ((Flit.openRun_eq_nil_iff _).mpr hended)
  obtain ⟨hsubnet, haccepted⟩ := foldl_settle (ofActions s actions) n
  rw [← ofActions_append] at hsubnet haccepted
  have hidle : (ofActions s (actions ++ settle n)).subnet.isIdle = true := hsubnet ▸ hrest
  refine ⟨n, hidle, haccepted, fun i config backend hi => ?_⟩
  obtain ⟨taken', merged', t'⟩ := traces hs (actions ++ settle n)
  have hu : (Subnet.units link target backends)[i]? =
      some (RegisterUnit.initial config backend) := by
    rw [Subnet.units, List.getElem?_map, hi]
    rfl
  exact t'.answers_of_isIdle (Subnet.length_units_le hs) hu hidle

/-! ## A host that begins -/

/-- Flits that find room in the ingress are accepted. -/
theorem accepted_foldl_push (fs : List Flit) (r : SubnetRun)
    (hroom : r.subnet.ingress.flits.length + fs.length ≤ r.subnet.ingress.depth) :
    ((fs.map SubnetAction.push).foldl act r).accepted = r.accepted ++ fs := by
  induction fs generalizing r with
  | nil => exact (List.append_nil _).symm
  | cons f fs ih =>
    rw [List.length_cons] at hroom
    have hready : r.subnet.ingress.ready = true := by
      unfold Buffer.ready Buffer.isFull Buffer.size
      rw [Bool.not_eq_true', decide_eq_false_iff_not]
      omega
    have hpushed : (r.act (.push f)).accepted = r.accepted ++ [f] := by
      show r.accepted ++ (if r.subnet.ingress.ready then [f] else []) = _
      rw [hready, if_pos rfl]
    have hdepth : (r.act (.push f)).subnet.ingress.depth = r.subnet.ingress.depth :=
      Buffer.push_depth ..
    have hflits : (r.act (.push f)).subnet.ingress.flits = r.subnet.ingress.flits ++ [f] := by
      show (r.subnet.ingress.push f).flits = _
      rw [Buffer.flits_push, hready, if_pos rfl]
    have hrest := ih (r.act (.push f)) (by
      rw [hdepth, hflits, List.length_append, List.length_singleton]
      omega)
    rw [List.map_cons, List.foldl_cons, hrest, hpushed, List.append_assoc]
    rfl

/-- A new subnet accepts flits for its ingress. -/
theorem accepted_ofActions_push (hs : Subnet.withBackends link target backends = .ok s)
    (fs : List Flit) (hroom : fs.length ≤ link.bufferDepth) :
    (ofActions s (fs.map .push)).accepted = fs := by
  obtain ⟨-, -, nodes, -, rfl⟩ := Subnet.withBackends_eq_ok hs
  exact accepted_foldl_push fs _ (by simpa [Buffer.empty] using hroom)

end SubnetRun

end ProbeNet
