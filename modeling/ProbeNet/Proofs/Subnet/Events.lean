import ProbeNet.Proofs.Subnet.Composition

/-!
# The events of a subnet

Whatever a host does with a subnet, whoever puts the event packets that leave it
together gets, of each module, the events that the module was made to emit, in
order and as they were at the moment of the call; and all of them when the subnet
has become idle: `subnet_delivers_events`.

The event packets of a module are followed up to the arbiter in
`Comprises.events_share`, found behind it in `Comprises.events_whole`, and put
together by `Reassembler.events_flatMap_split`.
-/

namespace ProbeNet

open Register

namespace Subnet

/-- The event packets that come from an address. -/
def eventPacketsOf (a : Address) (ps : List Packet) : List Packet :=
  ps.filter fun p => decide (p.packetClass = .event) && decide (p.src = a)

variable {s₀ s : Subnet} {popped : List Flit} {emitted : List Event} {merged : Passage}

section Built

variable {link : LinkSettings} {target : TargetSettings} {backends : List MapBackend}

/-- The event packets of one module that have gone through the arbiter are those of the events
that it has emitted, or the first of them. -/
theorem Comprises.events_share (c : s₀.Comprises s popped emitted merged)
    (hs : withBackends link target backends = .ok s₀) (a : Address) :
    ∃ limit, (∀ e ∈ emitted.filter fun e => e.src = a, e.SplitBy limit) ∧
      (Packet.ofStream (merged.share a.toNat)).filter (fun p => p.packetClass = .event) <+:
        (emitted.filter fun e => e.src = a).flatMap (Event.split limit) ∧
      (s.isIdle = true →
        (Packet.ofStream (merged.share a.toNat)).filter (fun p => p.packetClass = .event) =
          (emitted.filter fun e => e.src = a).flatMap (Event.split limit)) := by
  have haddress : BitVec.ofNat 10 a.toNat = a := ((address_eq_iff a.isLt).mpr rfl).symm
  cases hn : s.nodes[a.toNat]? with
  | none =>
    have hplace := List.getElem?_eq_none_iff.mp hn
    have hnothing : emitted.filter (fun e => e.src = a) = [] := by
      refine List.filter_eq_nil_iff.mpr fun e he => ?_
      have hlt := c.emitters e he
      have hcount := c.count
      rw [decide_eq_true_eq]
      rintro rfl
      omega
    have hshare : merged.share a.toNat = [] :=
      c.merges.arbiter.share_of_le (by rwa [outputs, List.length_map])
    rw [hnothing, hshare]
    exact ⟨0, by simp, List.nil_prefix, fun _ => rfl⟩
  | some n =>
    have hplace : a.toNat < s₀.nodes.length := by
      rw [← c.count]
      exact (List.getElem?_eq_some_iff.mp hn).1
    have hn₀ := List.getElem?_eq_getElem hplace
    obtain ⟨-, config, backend, -, hmodule⟩ := (nodes_of_withBackends hs).2 _ _ hn₀
    obtain ⟨hsplit, hread, hall⟩ := (c.modules _ n _ hn hn₀).sends_emitted hmodule
    rw [haddress] at hsplit hread hall
    refine ⟨n.module.eventLimit, hsplit, ?_, fun hidle => ?_⟩
    · have hthrough : merged.share a.toNat <+: merged.share a.toNat ++ n.out.slot.toList :=
        List.prefix_append _ _
      exact ((Packet.ofStream_prefix hthrough).filter _).trans hread
    · obtain ⟨hslot, hmodule⟩ := (idle_parts hidle).2 _ n hn
      rw [hslot, Option.toList_none, List.append_nil] at hall
      exact hall hmodule

/-- An event packet that has gone through the arbiter carries the address of its module. -/
theorem Comprises.src_of_mem_share (c : s₀.Comprises s popped emitted merged)
    (hs : withBackends link target backends = .ok s₀) {a : Address} {p : Packet}
    (hp : p ∈ Packet.ofStream (merged.share a.toNat)) (hclass : p.packetClass = .event) :
    p.src = a := by
  obtain ⟨limit, -, hread, -⟩ := c.events_share hs a
  have hmem := hread.subset (List.mem_filter.mpr ⟨hp, by simpa using hclass⟩)
  obtain ⟨e, he, hp⟩ := List.mem_flatMap.mp hmem
  rw [(mem_fragments hp).2.1]
  simpa using (List.mem_filter.mp he).2

/-- Behind the arbiter, the event packets with the address of a module are those that the
module has sent. -/
theorem Comprises.events_whole (c : s₀.Comprises s popped emitted merged)
    (hs : withBackends link target backends = .ok s₀) (a : Address) :
    eventPacketsOf a (Packet.ofStream merged.whole) =
      (Packet.ofStream (merged.share a.toNat)).filter (fun p => p.packetClass = .event) := by
  have hlimit : s.nodes.length ≤ 1024 := by
    rw [c.count]
    exact (nodes_of_withBackends hs).1
  have hsrc : ∀ j < s.nodes.length, ∀ p ∈ Packet.ofStream (merged.share j),
      p.packetClass = .event → p.src = BitVec.ofNat 10 j := by
    intro j hj p hp hclass
    have hplace : (BitVec.ofNat 10 j).toNat = j :=
      Nat.mod_eq_of_lt (Nat.lt_of_lt_of_le hj hlimit)
    exact c.src_of_mem_share hs (by rwa [hplace]) hclass
  have hwhole := c.merges.filter_whole hlimit hsrc a.isLt
  rw [← (address_eq_iff a.isLt).mpr rfl] at hwhole
  exact hwhole

end Built

end Subnet

/-- Take any subnet that can be built and anything that happens to it, and put the event packets
that have left it together.  The events from each address are, in order, those that the module
was made to emit, or the first of them: with the payload of the call, with the event destination
that the module had then, and with the subclass of a last packet.  They are all when the subnet is
idle. -/
theorem subnet_delivers_events {link : LinkSettings} {target : TargetSettings}
    {backends : List MapBackend} {s : Subnet}
    (hs : Subnet.withBackends link target backends = .ok s) (actions : List SubnetAction)
    (a : Address) :
    let r := SubnetRun.ofActions s actions
    let received := (Packet.ofStream r.popped).filter fun p => p.packetClass = .event
    let delivered := ((Reassembler.initial none).events received).filter fun e => e.src = a
    let emitted := (SubnetRun.emissions { subnet := s } actions).filter fun e => e.src = a
    delivered <+: emitted ∧ (r.subnet.isIdle = true → delivered = emitted) := by
  intro r received delivered emitted
  obtain ⟨merged, c⟩ := SubnetRun.comprises hs actions
  obtain ⟨limit, hsplit, hread, hall⟩ := c.events_share hs a
  rw [← c.events_whole hs a] at hread hall
  have hdelivered : delivered = (Reassembler.initial none).events
      (Subnet.eventPacketsOf a (Packet.ofStream r.popped)) := by
    have hpackets : received.filter (fun p => p.src = a) =
        Subnet.eventPacketsOf a (Packet.ofStream r.popped) := by
      rw [Subnet.eventPacketsOf, List.filter_filter]
      exact List.filter_congr fun p _ => Bool.and_comm _ _
    rw [← hpackets]
    exact Reassembler.filter_events (fun pair => pair.1 = a) rfl (fun _ _ => rfl) received
  have htogether : (Reassembler.initial none).events (emitted.flatMap (Event.split limit)) =
      emitted := Reassembler.events_flatMap_split rfl (fun _ => rfl) hsplit
  rw [hdelivered, ← htogether]
  refine ⟨Reassembler.events_prefix _ ?_, fun hidle => congrArg _ ?_⟩
  · have hpopped : r.popped <+: merged.whole := by
      rw [c.merges.egress]
      exact List.prefix_append _ _
    exact ((Packet.ofStream_prefix hpopped).filter _).trans hread
  · have hpopped : merged.whole = r.popped := by
      rw [c.merges.egress, (Subnet.idle_parts hidle).1, List.append_nil]
    rw [← hpopped]
    exact hall hidle

/-- The event destination of a module is changed while an event of three packets is on its way.  A
second event goes to the new destination, the first does not, and a module that is not active
emits nothing. -/
theorem subnet_delivers_events_redirected :
    ∃ s, Subnet.withBackends {} {} [.ofRange 0x200 0x300, .ofRange 0x200 0x300] = .ok s ∧
      let payload : List Word := (List.range 20).map (BitVec.ofNat 16)
      let redirect : Packet :=
        { dest := 1, src := 0x3ff, kind := .register (.writeRequest .w16),
          payload := [eventDestAddress, 0x3ff] }
      let actions : List SubnetAction :=
        [.emit 1 payload] ++ redirect.toFlits.map .push ++
          (List.replicate 22 [.step, .pop]).flatten ++ [.emit 1 [], .emit 2 [7]] ++
          (List.replicate 30 [.step, .pop]).flatten
      let r := SubnetRun.ofActions s actions
      let received := (Packet.ofStream r.popped).filter fun p => p.packetClass = .event
      let delivered := (Reassembler.initial none).events received
      r.subnet.isIdle = true ∧
        delivered = [⟨1, 0, .eventLast, payload, 3⟩, ⟨1, 0x3ff, .eventLast, [], 1⟩] ∧
        delivered.filter (fun e => e.src = 1) =
          (SubnetRun.emissions { subnet := s } actions).filter fun e => e.src = 1 := by
  have hs : Subnet.withBackends {} {} [.ofRange 0x200 0x300, .ofRange 0x200 0x300] = .ok _ := rfl
  refine ⟨_, hs, ?_⟩
  intro payload redirect actions r received delivered
  have hidle : r.subnet.isIdle = true := by decide +kernel
  exact ⟨hidle, by decide +kernel, (subnet_delivers_events hs actions 1).2 hidle⟩

end ProbeNet
