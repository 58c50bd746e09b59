import ProbeNet.Proofs.Subnet.Flow

/-!
# The answers of a subnet

Whatever a host does with a subnet, the register packets of a module that
leave it are the answers of the module's register unit to the requests that
named the module, or the first of them.  Nothing else that happens in the
subnet shows in them: `subnet_sends_answers`.

* `Subnet.requestsTo` picks the requests of a module out of a stream.
* `Traces.answers_share` follows the answers of one module up to the arbiter,
  and `Traces.registerPacketsOf_whole` finds them behind it.
-/

namespace ProbeNet

open Register

namespace Subnet

/-- The register requests for the module at address `i` that are short enough. -/
def requestsTo (limit i : Nat) (ps : List Packet) : List Packet :=
  ps.filter fun p => p.isRequest && decide (p.lenWords ≤ limit) && decide (p.dest = BitVec.ofNat 10 i)

/-- The register packets that come from the module at address `i`. -/
def registerPacketsOf (i : Nat) (ps : List Packet) : List Packet :=
  ps.filter fun p => decide (p.packetClass = .register) && decide (p.src = BitVec.ofNat 10 i)

theorem requestsTo_prefix {limit i : Nat} {ps qs : List Packet} (h : ps <+: qs) :
    requestsTo limit i ps <+: requestsTo limit i qs := h.filter _

/-- The router picks the requests of a module out of its stream. -/
theorem requests_deliveries {limit i : Nat} (hi : i < 1024) (fs : List Flit) :
    (Packet.ofStream (deliveries limit i fs)).filter Packet.isRequest =
      requestsTo limit i (Packet.ofStream fs) := by
  rw [requestsTo, Packet.ofStream, Packet.ofStream, runs_deliveries, List.filter_filterMap,
    List.filter_filterMap, List.filterMap_filter]
  congr 1
  funext r
  cases hp : Packet.ofFlits r with
  | error e => simp [Except.toOption]
  | ok p =>
    obtain ⟨dest, src, flags, rest, rfl, hdest, -, hlength⟩ := Packet.cons_of_ofFlits hp
    have hplace : destOf (dest :: src :: flags :: rest) = p.dest.toNat := by
      rw [hdest]
      rfl
    have hgoes : goesTo limit i (dest :: src :: flags :: rest) =
        (decide (p.lenWords ≤ limit) && decide (p.dest = BitVec.ofNat 10 i)) := by
      rw [goesTo, hlength, hplace, decide_eq_decide.mpr (address_eq_iff hi)]
    rw [hgoes]
    simp only [Except.toOption, Option.filter]
    by_cases hfits : p.lenWords ≤ limit <;> by_cases hrequest : p.isRequest = true <;>
      simp [hfits, hrequest]

/-- A module that has taken what the router delivers answers the requests for it, or the first
of them. -/
theorem answers_prefix_requestsTo {limit i : Nat} (hi : i < 1024) (u : RegisterUnit)
    {received fs : List Flit} (h : received <+: deliveries limit i fs) :
    u.answers (Packet.ofStream received) <+:
      u.answers (requestsTo limit i (Packet.ofStream fs)) := by
  rw [← u.answers_filter, ← requests_deliveries hi]
  exact u.answers_prefix ((Packet.ofStream_prefix h).filter _)

/-- An answer carries the address of the module that it was asked of. -/
theorem src_of_mem_answers {limit i : Nat} {u : RegisterUnit} {ps : List Packet} {answer : Packet}
    (h : answer ∈ u.answers (requestsTo limit i ps)) : answer.src = BitVec.ofNat 10 i := by
  obtain ⟨request, hrequest, u', hanswer⟩ := RegisterUnit.exists_of_mem_answers h
  have hdest : request.dest = BitVec.ofNat 10 i := by
    have htest := (List.mem_filter.mp hrequest).2
    simp only [Bool.and_eq_true, decide_eq_true_eq] at htest
    exact htest.2
  rw [hanswer.addressed.2, hdest]

/-- A subnet has no more modules than there are addresses. -/
theorem length_units_le {link : LinkSettings} {target : TargetSettings}
    {backends : List MapBackend} {s : Subnet} (h : withBackends link target backends = .ok s) :
    (units link target backends).length ≤ 1024 := by
  obtain ⟨hmodules, -⟩ := withBackends_eq_ok h
  rw [units, List.length_map, blueprints, List.length_cons, List.length_zipWith]
  unfold Address.max at hmodules
  omega

variable {units : List RegisterUnit} {limit : Nat} {s : Subnet}
  {accepted popped taken : List Flit} {merged : Passage} {i : Nat} {n : Node} {u : RegisterUnit}

/-- What a module has sent are answers to the requests that the router has
taken for it. -/
theorem Traces.answers_share (t : s.Traces units limit accepted popped taken merged)
    (hi : i < 1024) (hn : s.nodes[i]? = some n) (hu : units[i]? = some u) :
    (Packet.ofStream (merged.share i)).filter (fun p => p.packetClass = .register) <+:
      u.answers (requestsTo limit i (Packet.ofStream taken)) := by
  rw [← t.limit]
  obtain ⟨received, ⟨depth, -, hflows⟩, hreceived⟩ := t.nodes i n u hn hu
  have hsent : merged.share i <+: merged.share i ++ n.out.slot.toList := List.prefix_append _ _
  have htaken : received <+: deliveries s.maxPacketLen i taken := by
    rw [← hreceived]
    exact List.prefix_append _ _
  exact ((Packet.ofStream_prefix hsent).filter _).trans
    (hflows.answers_prefix.trans (answers_prefix_requestsTo hi u htaken))

/-- A register packet that a module has sent carries its address. -/
theorem Traces.src_of_mem_share (t : s.Traces units limit accepted popped taken merged)
    (hi : i < 1024) (hn : s.nodes[i]? = some n) {p : Packet}
    (hp : p ∈ Packet.ofStream (merged.share i)) (hclass : p.packetClass = .register) :
    p.src = BitVec.ofNat 10 i := by
  have hplace : i < units.length := by
    rw [← t.count]
    exact (List.getElem?_eq_some_iff.mp hn).1
  have hmem : p ∈ (Packet.ofStream (merged.share i)).filter (fun p => p.packetClass = .register) :=
    List.mem_filter.mpr ⟨hp, by simpa using hclass⟩
  exact src_of_mem_answers ((t.answers_share hi hn (List.getElem?_eq_getElem hplace)).subset hmem)

/-- Behind the arbiter, the register packets with the address of a module are
those that the module has sent. -/
theorem Traces.registerPacketsOf_whole (t : s.Traces units limit accepted popped taken merged)
    (hcount : units.length ≤ 1024) (hi : i < units.length) :
    registerPacketsOf i (Packet.ofStream merged.whole) =
      (Packet.ofStream (merged.share i)).filter (fun p => p.packetClass = .register) := by
  refine t.merges.filter_whole (t.count ▸ hcount) (fun j hj p hp hclass => ?_)
    (Nat.lt_of_lt_of_le hi hcount)
  have hlimit : j < 1024 := Nat.lt_of_lt_of_le (t.count ▸ hj) hcount
  exact t.src_of_mem_share hlimit (List.getElem?_eq_getElem hj) hp hclass

end Subnet

/-- Take any subnet that can be built and anything that happens to it.  The
register packets from address `i` that have left the subnet are, in order, the
answers of the register unit of this module to the requests for it among the
packets that the subnet has accepted, or the first of them.  Each request has
one answer, the one that the unit owes to it after the requests before it,
which goes to its sender and carries the address `i`. -/
theorem subnet_sends_answers {link : LinkSettings} {target : TargetSettings}
    {backends : List MapBackend} {s : Subnet}
    (hs : Subnet.withBackends link target backends = .ok s) (actions : List SubnetAction)
    {i : Nat} {config : EngineConfig} {backend : ModuleBackend}
    (hi : (Subnet.blueprints link target backends)[i]? = some (config, backend)) :
    let u := RegisterUnit.initial config backend
    let r := SubnetRun.ofActions s actions
    let requests := Subnet.requestsTo link.maxPacketLen i (Packet.ofStream r.accepted)
    Subnet.registerPacketsOf i (Packet.ofStream r.popped) <+: u.answers requests ∧
      (u.answers requests).length = requests.length ∧
      ∀ before request rest, requests = before ++ request :: rest →
        ∃ answer, (u.after before).IsAnswer request answer ∧
          answer.dest = request.src ∧ answer.src = BitVec.ofNat 10 i ∧
          u.answers requests =
            u.answers before ++ answer :: (u.after (before ++ [request])).answers rest := by
  intro u r requests
  have hrequests : ∀ p ∈ requests, p.isRequest = true ∧ p.dest = BitVec.ofNat 10 i := by
    intro p hp
    have htest := (List.mem_filter.mp hp).2
    simp only [Bool.and_eq_true, decide_eq_true_eq] at htest
    exact ⟨htest.1.1, htest.2⟩
  refine ⟨?_, u.length_answers fun p hp => (hrequests p hp).1, ?_⟩
  · obtain ⟨taken, merged, t⟩ := SubnetRun.traces hs actions
    have hplace : i < (Subnet.units link target backends).length := by
      rw [Subnet.units, List.length_map]
      exact (List.getElem?_eq_some_iff.mp hi).1
    have hu : (Subnet.units link target backends)[i]? = some u := by
      rw [Subnet.units, List.getElem?_map, hi]
      rfl
    have hcount := Subnet.length_units_le hs
    obtain ⟨n, hn⟩ : ∃ n, r.subnet.nodes[i]? = some n :=
      ⟨_, List.getElem?_eq_getElem (by rw [t.count]; exact hplace)⟩
    have hpopped : r.popped <+: merged.whole := by
      rw [t.egress]
      exact List.prefix_append _ _
    have htaken : taken <+: r.accepted := by
      rw [t.ingress]
      exact List.prefix_append _ _
    refine ((Packet.ofStream_prefix hpopped).filter _).trans ?_
    show Subnet.registerPacketsOf i (Packet.ofStream merged.whole) <+: _
    rw [t.registerPacketsOf_whole hcount hplace]
    refine (t.answers_share (Nat.lt_of_lt_of_le hplace hcount) hn hu).trans ?_
    exact u.answers_prefix (Subnet.requestsTo_prefix (Packet.ofStream_prefix htaken))
  · intro before request rest heq
    obtain ⟨hrequest, hdest⟩ := hrequests request (by rw [heq]; simp)
    obtain ⟨answer, hanswer, hsplit⟩ := u.answers_of_request before rest hrequest
    refine ⟨answer, hanswer, hanswer.addressed.1, hanswer.addressed.2.trans hdest, ?_⟩
    rw [heq]
    exact hsplit

/-- A register that is written and read back: both answers leave the subnet, and
they are those of the register unit. -/
theorem subnet_sends_answers_readBack :
    ∃ s, Subnet.withBackends {} {} [.ofRange 0x200 0x300, .ofRange 0x200 0x300] = .ok s ∧
      let write : Packet :=
        { dest := 1, src := 0x3ff, kind := .register (.writeRequest .w16), payload := [0x200, 0xbeef] }
      let read : Packet :=
        { dest := 1, src := 0x3ff, kind := .register (.readRequest .w16), payload := [0x200] }
      let r := SubnetRun.ofActions s
        ((Packet.stream [write, read]).map .push ++ (List.replicate 70 [.step, .pop]).flatten)
      let u := RegisterUnit.initial (Subnet.engineConfig {} (.standard .memoryAccess 0) false)
        (.map (.ofRange 0x200 0x300))
      Packet.ofStream r.popped = [write.reply (.register .writeSuccess) [],
        read.reply (.register (.readSuccess .w16)) [0xbeef]] ∧
      Subnet.registerPacketsOf 1 (Packet.ofStream r.popped) <+:
        u.answers (Subnet.requestsTo 12 1 (Packet.ofStream r.accepted)) := by
  have hs : Subnet.withBackends {} {} [.ofRange 0x200 0x300, .ofRange 0x200 0x300] = .ok _ := rfl
  have hi : (Subnet.blueprints {} {} [.ofRange 0x200 0x300, .ofRange 0x200 0x300])[1]? =
      some (Subnet.engineConfig {} (.standard .memoryAccess 0) false,
        .map (.ofRange 0x200 0x300)) := rfl
  refine ⟨_, hs, ?_, (subnet_sends_answers hs _ hi).1⟩
  decide +kernel

end ProbeNet
