import ProbeNet.Proofs.Subnet.Answers
import ProbeNet.Proofs.Subnet.Ledger

/-!
# Whole packets leave

What the host has taken from a subnet is, at every moment, some whole packets and a part of the
next one.  The packets of each module are made of the answers of its engine and of the packets of
its events, each in the order in which they were made, and none is lost or sent twice:
`egress_is_packets`.

* `Balanced.exists_made` says this of what the arbiter has let through from one module.
* `Balanced.exists_packets` puts it together behind the arbiter.
-/

namespace ProbeNet

open Register

namespace SubnetLedger

/-- The packets that carry the address `i`. -/
def sentBy (i : Nat) (ps : List Packet) : List Packet := ps.filter fun p => p.src.toNat = i

variable {l : SubnetLedger} {limit count : Nat} {taken : List Flit} {merged : Passage}

/-- What a module makes carries its address. -/
theorem Balanced.src_of_made (b : l.Balanced limit count taken merged) (hcount : count ≤ 1024)
    {i : Nat} {n : Node} (hn : l.subnet.nodes[i]? = some n) {p : Packet}
    (hp : p ∈ (l.records i).answered ∨ p ∈ (l.records i).queued) : p.src = BitVec.ofNat 10 i := by
  have hi : i < count := by
    rw [← b.router.places]
    exact (List.getElem?_eq_some_iff.mp hn).1
  obtain ⟨u, h, c, hreceived, -⟩ := b.modules.modules i n hn
  rcases hp with hanswer | hevent
  · have hgiven : h.received <+: Subnet.deliveries limit i taken := by
      rw [hreceived, ← b.router.modules i hi]
      exact List.prefix_append _ _
    have hasked := Subnet.answers_prefix_requestsTo (Nat.lt_of_lt_of_le hi hcount) u hgiven
    exact Subnet.src_of_mem_answers ((c.answered_prefix.trans hasked).subset hanswer)
  · exact c.sources p hevent

/-- What the arbiter has let through from one module begins packets that the module has made; and
it is all of them when the subnet is idle. -/
theorem Balanced.exists_made (b : l.Balanced limit count taken merged) (hcount : count ≤ 1024)
    (i : Nat) :
    ∃ ps, (l.records i).Makes ps ∧ merged.share i <+: Packet.stream ps ∧
      (∀ p ∈ ps, i < count ∧ p.src = BitVec.ofNat 10 i) ∧
      (l.subnet.isIdle = true → merged.share i = Packet.stream ps ∧
        (i < count → Interleaves (l.records i).answered (l.records i).queued ps)) := by
  cases hn : l.subnet.nodes[i]? with
  | none =>
    have hplace := List.getElem?_eq_none_iff.mp hn
    have hnothing : merged.share i = [] :=
      b.modules.merges.arbiter.share_of_le (by rwa [Subnet.outputs, List.length_map])
    refine ⟨[], ModuleRecord.makes_nil, hnothing ▸ List.nil_prefix, by simp, fun _ =>
      ⟨hnothing, fun hi => ?_⟩⟩
    rw [b.router.places] at hplace
    exact absurd hi (Nat.not_lt.mpr hplace)
  | some n =>
    have hi : i < count := by
      rw [← b.router.places]
      exact (List.getElem?_eq_some_iff.mp hn).1
    obtain ⟨u, h, c, -, hsent⟩ := b.modules.modules i n hn
    obtain ⟨ps, hmade, hwhole, hall⟩ := c.exists_made
    rw [hsent] at hwhole hall
    refine ⟨ps, hmade, (List.prefix_append _ _).trans hwhole,
      fun p hp => ⟨hi, b.src_of_made hcount hn (hmade.mem hp)⟩, fun hidle => ?_⟩
    obtain ⟨hslot, hmodule⟩ := (Subnet.idle_parts hidle).2 i n hn
    obtain ⟨hevery, hflits⟩ := hall hmodule
    rw [hslot, Option.toList_none, List.append_nil] at hflits
    exact ⟨hflits, fun _ => hevery⟩

/-- What has left the subnet begins packets that its modules have made; and it is all of them when
the subnet is idle. -/
theorem Balanced.exists_packets (b : l.Balanced limit count taken merged)
    (hcount : count ≤ 1024) :
    ∃ all, l.popped <+: Packet.stream all ∧ (∀ p ∈ all, p.src.toNat < count) ∧
      (∀ i < count, (l.records i).Makes (sentBy i all)) ∧
      (l.subnet.isIdle = true → l.popped = Packet.stream all ∧
        ∀ i < count, Interleaves (l.records i).answered (l.records i).queued (sentBy i all)) := by
  choose ps hmade hshare hsrc hidle using b.exists_made hcount
  have hmerges := b.modules.merges
  obtain ⟨all, hwhole, hparts, hall⟩ := hmerges.arbiter.sound.exists_packets hshare
  -- The address of a packet tells from which module it came.
  have hplace : ∀ x ∈ all, x.2.src.toNat = x.1 ∧ x.1 < count := by
    intro x hx
    have hmem : x.2 ∈ ps x.1 :=
      (hparts x.1).subset (List.mem_map.mpr ⟨x, List.mem_filter.mpr ⟨hx, by simp⟩, rfl⟩)
    obtain ⟨hlt, haddress⟩ := hsrc x.1 x.2 hmem
    rw [haddress, BitVec.toNat_ofNat]
    exact ⟨Nat.mod_eq_of_lt (Nat.lt_of_lt_of_le hlt hcount), hlt⟩
  have hsentBy : ∀ i, sentBy i (all.map Prod.snd) = (all.filter fun x => x.1 = i).map Prod.snd := by
    intro i
    rw [sentBy, List.filter_map]
    refine congrArg (List.map Prod.snd) (List.filter_congr fun x hx => ?_)
    rw [Function.comp_apply, (hplace x hx).1]
  have hpopped : l.popped <+: merged.whole := by
    rw [hmerges.egress]
    exact List.prefix_append _ _
  refine ⟨all.map Prod.snd, hpopped.trans hwhole, fun p hp => ?_, fun i _ => ?_, fun hidles => ?_⟩
  · obtain ⟨x, hx, rfl⟩ := List.mem_map.mp hp
    obtain ⟨haddress, hlt⟩ := hplace x hx
    rwa [haddress]
  · rw [hsentBy]
    exact (hmade i).of_begins (hparts i)
  · obtain ⟨hflits, hpackets⟩ := hall fun i => (hidle i hidles).1
    refine ⟨?_, fun i hi => ?_⟩
    · rw [← hflits, hmerges.egress, (Subnet.idle_parts hidles).1, List.append_nil]
    · rw [hsentBy, hpackets i]
      exact (hidle i hidles).2 hi

end SubnetLedger

/-- Take any subnet that can be built and anything that happens to it, and look at the flits that
have left it, at any moment.

Each run up to a flit that is marked last is the flits of a packet, and behind these packets comes
nothing or a part of one more, not yet all of it.  Each packet carries the address of a module.
The packets of a module are made of the answers that its engine has made and of the packets of the
events that it was made to emit: of each the first ones, in order, put together in some way.
When the subnet is idle all of them have left. -/
theorem egress_is_packets {link : LinkSettings} {target : TargetSettings}
    {backends : List MapBackend} {s : Subnet}
    (hs : Subnet.withBackends link target backends = .ok s) (actions : List SubnetAction) :
    let l := SubnetLedger.ofActions s actions
    let packets := Packet.ofStream l.popped
    let rest := Flit.openRun l.popped
    (∀ r ∈ Flit.runs l.popped, ∃ p, Packet.ofFlits r = .ok p ∧ p.toFlits = r) ∧
    l.popped = Packet.stream packets ++ rest ∧
    (rest = [] ∨ ∃ next, rest <+: next.toFlits ∧ rest ≠ next.toFlits ∧
      (l.records next.src.toNat).Makes
        (SubnetLedger.sentBy next.src.toNat (packets ++ [next]))) ∧
    (∀ p ∈ packets, p.src.toNat < s.moduleCount) ∧
    (∀ i < s.moduleCount, (l.records i).Makes (SubnetLedger.sentBy i packets)) ∧
    (l.subnet.isIdle = true → rest = [] ∧ ∀ i < s.moduleCount,
      Interleaves (l.records i).answered (l.records i).queued (SubnetLedger.sentBy i packets)) := by
  intro l packets rest
  obtain ⟨taken, merged, b⟩ := SubnetLedger.balanced hs actions
  obtain ⟨all, hpopped, hsrc, hmade, hidle⟩ :=
    b.exists_packets (Subnet.nodes_of_withBackends hs).1
  obtain ⟨hread, hflits, hopen⟩ := Packet.stream_cases hpopped
  refine ⟨fun r hr => ?_, hflits, hopen.imp_right ?_, fun p hp => hsrc p (hread.subset hp),
    fun i hi => (hmade i hi).of_begins (hread.filter _), fun hidles => ?_⟩
  · obtain ⟨p, -, hp⟩ := Packet.exists_of_mem_runs hpopped hr
    exact ⟨p, hp⟩
  · rintro ⟨next, hnext, hpart, hne⟩
    have hplace := hsrc next (hnext.subset (List.mem_append_right _ (List.mem_singleton_self _)))
    exact ⟨next, hpart, hne, (hmade _ hplace).of_begins (hnext.filter _)⟩
  · obtain ⟨hwhole, hevery⟩ := hidle hidles
    have hpackets : packets = all := by
      rw [show packets = Packet.ofStream l.popped from rfl, hwhole, Packet.ofStream_stream]
    rw [hpackets]
    refine ⟨?_, hevery⟩
    rw [show rest = Flit.openRun l.popped from rfl, hwhole, Packet.openRun_stream]

/-- Module 1 is asked twice, and emits an event when it has made the first answer; module 2 is
asked once.  The event goes between the two answers, and the host stops in the middle of the answer
of module 2. -/
theorem egress_is_packets_midway :
    ∃ s, Subnet.withBackends {} {} [.ofRange 0x200 0x300, .ofRange 0x200 0x300] = .ok s ∧
      let read : Packet :=
        { dest := 1, src := 0x3ff, kind := .register (.readRequest .w16), payload := [0x200] }
      let actions : List SubnetAction :=
        (Packet.stream [read, read, { read with dest := 2 }]).map .push ++
          (List.replicate 23 [.step, .pop]).flatten ++ [.emit 1 [5, 6]] ++
          (List.replicate 15 [.step, .pop]).flatten
      let l := SubnetLedger.ofActions s actions
      (Flit.openRun l.popped).length = 2 ∧
        (Packet.ofStream l.popped).map (fun p => (p.src, p.packetClass)) =
          [(1, .register), (1, .event), (1, .register)] ∧
        (l.records 1).Makes (SubnetLedger.sentBy 1 (Packet.ofStream l.popped)) := by
  have hs : Subnet.withBackends {} {} [.ofRange 0x200 0x300, .ofRange 0x200 0x300] = .ok _ := rfl
  refine ⟨_, hs, ?_⟩
  intro read actions l
  obtain ⟨-, -, -, -, hmade, -⟩ := egress_is_packets hs actions
  have hrest : (Flit.openRun l.popped).length = 2 := by decide +kernel
  have hpackets : (Packet.ofStream l.popped).map (fun p => (p.src, p.packetClass)) =
      [(1, .register), (1, .event), (1, .register)] := by decide +kernel
  with_reducible exact ⟨hrest, hpackets, hmade 1 (by decide)⟩

end ProbeNet
