import ProbeNet.Proofs.Register.Reads
import ProbeNet.Proofs.Subnet.Composition
import ProbeNet.Proofs.Subnet.Service

/-!
# How long the packets of a subnet are

A link has a longest packet.  A module cuts the packets of its events to it, and all
its answers but one are headers; only the answer that grants a read is as long as the
width that was asked for, whatever the link allows.  `egress_within_limit_iff` says which
packets are too long and which subnets never send one.

* `RegisterUnit.lenWords_of_answer` bounds the answers of a unit by how it is set up.
* `SubnetRun.mem_popped` says where a packet that has left comes from.
* `SubnetRun.exists_readSuccess` has a host read a register.
-/

namespace ProbeNet

open Register

/-! ## The answers of a unit -/

namespace RegisterUnit

variable {config : EngineConfig} {backend : ModuleBackend} {ps : List Packet} {answer : Packet}

/-- An answer is a header, or it grants a read that the unit admits of a register that can be
read in the unit as it was set up. -/
theorem lenWords_of_answer (h : answer ∈ (initial config backend).answers ps) :
    (∃ w address, answer.kind = .register (.readSuccess w) ∧
      answer.lenWords = headerWords + w.words ∧
      (initial config backend).admits address w = true ∧
      ((initial config backend).content? address).isSome = true) ∨
    answer.lenWords = headerWords ∧ ∀ w, answer.kind ≠ .register (.readSuccess w) := by
  obtain ⟨before, request, rest, -, hanswer⟩ := exists_split_of_mem_answers h
  refine hanswer.length_cases.imp_left ?_
  rintro ⟨w, address, hkind, hlength, hadmits, hcontent⟩
  rw [admits, config_after] at hadmits
  rw [(sameAccess_after _ before).1] at hcontent
  exact ⟨w, address, hkind, hlength, hadmits, hcontent⟩

/-- A read of more than one word goes to the backend. -/
theorem isSome_backend_of_admits {address : Word} {w : Width}
    (hadmits : (initial config backend).admits address w = true)
    (hcontent : ((initial config backend).content? address).isSome = true) (hwide : w ≠ .w16) :
    config.boundary ≤ address ∧ (backend.content? address).isSome = true := by
  have hplace : config.boundary ≤ address := by
    have hserved := (Bool.and_eq_true_iff.mp hadmits).2
    rw [decide_eq_false hwide, Bool.or_false] at hserved
    exact of_decide_eq_true hserved
  rw [content?_initial, if_neg (BitVec.not_lt.mpr hplace)] at hcontent
  exact ⟨hplace, hcontent⟩

end RegisterUnit

/-! ## The packets that leave -/

namespace Subnet

variable {link : LinkSettings} {target : TargetSettings} {backends : List MapBackend}
  {s₀ s : Subnet} {popped : List Flit} {emitted : List Event} {merged : Passage}

theorem config_of_blueprint {config : EngineConfig} {backend : ModuleBackend}
    (h : (config, backend) ∈ blueprints link target backends) :
    config.boundary = target.boundary ∧ config.maxWidth = target.maxWidth := by
  rcases List.mem_cons.mp h with hcontrol | hother
  · obtain ⟨rfl, -⟩ := Prod.mk.inj hcontrol
    exact ⟨rfl, rfl⟩
  · obtain ⟨i, hi⟩ := List.mem_iff_getElem?.mp hother
    rw [List.getElem?_zipWith] at hi
    split at hi
    · obtain ⟨rfl, -⟩ := Prod.mk.inj (Option.some.inj hi)
      exact ⟨rfl, rfl⟩
    · cases hi

/-- The link of a subnet has room for a payload word, and its buffers for a packet. -/
theorem limit_of_withBackends (hs : withBackends link target backends = .ok s₀) :
    headerWords + 1 ≤ link.maxPacketLen ∧ link.maxPacketLen ≤ link.bufferDepth := by
  obtain ⟨-, -, nodes, hnodes, rfl⟩ := withBackends_eq_ok hs
  obtain ⟨hlength, hspecs⟩ := buildNodes_eq_ok hnodes
  have hfirst : 0 < nodes.length := by
    rw [hlength, blueprints]
    exact Nat.succ_pos _
  obtain ⟨-, spec, -, hmodule⟩ := hspecs 0 _ (List.getElem?_eq_getElem hfirst)
  have hlimit := DebugModule.eventLimit_of_initial hmodule
  exact ⟨by omega, (DebugModule.traces_initial hmodule).2⟩

/-- A packet that has gone through the arbiter is the answer of a register unit to a request, or
one of an event and not too long. -/
theorem Comprises.mem_whole (c : s₀.Comprises s popped emitted merged)
    (hs : withBackends link target backends = .ok s₀) {p : Packet}
    (hp : p ∈ Packet.ofStream merged.whole) :
    (∃ config backend, (config, backend) ∈ blueprints link target backends ∧
      ∃ ps, p ∈ (RegisterUnit.initial config backend).answers ps) ∨
    p.packetClass = .event ∧ p.lenWords ≤ link.maxPacketLen := by
  obtain ⟨i, hshare⟩ := c.merges.arbiter.sound.exists_share hp
  cases hn : s.nodes[i]? with
  | none =>
    have hplace := List.getElem?_eq_none_iff.mp hn
    rw [c.merges.arbiter.share_of_le (by rwa [outputs, List.length_map])] at hshare
    cases hshare
  | some n =>
    have hi : i < s₀.nodes.length := by
      rw [← c.count]
      exact (List.getElem?_eq_some_iff.mp hn).1
    obtain ⟨-, config, backend, hblueprint, hmodule⟩ :=
      (nodes_of_withBackends hs).2 i _ (List.getElem?_eq_getElem hi)
    have hsent : p ∈ Packet.ofStream (merged.share i ++ n.out.slot.toList) :=
      (Packet.ofStream_prefix (List.prefix_append _ _)).subset hshare
    refine ((c.modules i n _ hn (List.getElem?_eq_getElem hi)).mem_sent hmodule hsent).imp_left ?_
    exact fun hanswer => ⟨config, backend, hblueprint, hanswer⟩

end Subnet

namespace SubnetRun

variable {link : LinkSettings} {target : TargetSettings} {backends : List MapBackend} {s : Subnet}

theorem mem_popped (hs : Subnet.withBackends link target backends = .ok s)
    (actions : List SubnetAction) {p : Packet}
    (hp : p ∈ Packet.ofStream (ofActions s actions).popped) :
    (∃ config backend, (config, backend) ∈ Subnet.blueprints link target backends ∧
      ∃ ps, p ∈ (RegisterUnit.initial config backend).answers ps) ∨
    p.packetClass = .event ∧ p.lenWords ≤ link.maxPacketLen := by
  obtain ⟨merged, c⟩ := comprises hs actions
  have hpopped : (ofActions s actions).popped <+: merged.whole := by
    rw [c.merges.egress]
    exact List.prefix_append _ _
  exact c.mem_whole hs ((Packet.ofStream_prefix hpopped).subset hp)

/-- A packet that has left is too long just if it grants a read of a width that is too long. -/
theorem exceeds_iff (hs : Subnet.withBackends link target backends = .ok s)
    (actions : List SubnetAction) {p : Packet}
    (hp : p ∈ Packet.ofStream (ofActions s actions).popped) :
    link.maxPacketLen < p.lenWords ↔
      ∃ w, p.kind = .register (.readSuccess w) ∧ link.maxPacketLen < headerWords + w.words := by
  obtain ⟨hroom, -⟩ := Subnet.limit_of_withBackends hs
  obtain ⟨config, backend, -, ps, hanswer⟩ | ⟨hclass, hfits⟩ := mem_popped hs actions hp
  · obtain ⟨w, -, hkind, hlength, -⟩ | ⟨hlength, hkind⟩ := RegisterUnit.lenWords_of_answer hanswer
    · rw [hlength]
      refine ⟨fun hlong => ⟨w, hkind, hlong⟩, ?_⟩
      rintro ⟨w', hkind', hlong⟩
      obtain rfl : w = w' := by simpa [hkind] using hkind'
      exact hlong
    · refine iff_of_false (by omega) ?_
      rintro ⟨w, hkind', -⟩
      exact hkind w hkind'
  · refine iff_of_false (Nat.not_lt.mpr hfits) ?_
    rintro ⟨w, hkind, -⟩
    rw [Packet.packetClass, hkind] at hclass
    cases hclass

/-- A read that is too long was admitted of a register of a backend that can be read. -/
theorem exists_readable_of_exceeds (hs : Subnet.withBackends link target backends = .ok s)
    (actions : List SubnetAction) {p : Packet}
    (hp : p ∈ Packet.ofStream (ofActions s actions).popped)
    (hlong : link.maxPacketLen < p.lenWords) :
    link.maxPacketLen < headerWords + target.maxWidth.words ∧
      ∃ config backend address, (config, backend) ∈ Subnet.blueprints link target backends ∧
        target.boundary ≤ address ∧ (backend.content? address).isSome = true := by
  obtain ⟨hroom, -⟩ := Subnet.limit_of_withBackends hs
  obtain ⟨config, backend, hblueprint, ps, hanswer⟩ | ⟨-, hfits⟩ := mem_popped hs actions hp
  · obtain ⟨hboundary, hwidth⟩ := Subnet.config_of_blueprint hblueprint
    obtain ⟨w, address, -, hlength, hadmits, hcontent⟩ | ⟨hlength, -⟩ :=
      RegisterUnit.lenWords_of_answer hanswer
    · have hnarrow : w.words ≤ target.maxWidth.words := by
        rw [← hwidth]
        exact of_decide_eq_true (Bool.and_eq_true_iff.mp hadmits).1
      have hwide : w ≠ .w16 := by
        rintro rfl
        have hword : Width.w16.words = 1 := rfl
        omega
      obtain ⟨hplace, hreadable⟩ := RegisterUnit.isSome_backend_of_admits hadmits hcontent hwide
      exact ⟨by omega, config, backend, address, hblueprint, hboundary ▸ hplace, hreadable⟩
    · omega
  · omega

/-! ## A read on its way -/

/-- A host that reads a register gets what is in it. -/
theorem exists_readSuccess (hs : Subnet.withBackends link target backends = .ok s)
    {config : EngineConfig} {backend : ModuleBackend} {address : Word} {v : Value} {w : Width}
    (hblueprint : (config, backend) ∈ Subnet.blueprints link target backends)
    (hadmits : (RegisterUnit.initial config backend).admits address w = true)
    (hcontent : (RegisterUnit.initial config backend).content? address = some v) :
    ∃ actions, ∃ p ∈ Packet.ofStream (ofActions s actions).popped,
      p.kind = .register (.readSuccess w) ∧ p.lenWords = headerWords + w.words := by
  obtain ⟨i, hi⟩ := List.mem_iff_getElem?.mp hblueprint
  let read : Packet :=
    { dest := BitVec.ofNat 10 i, src := 0x3ff, kind := .register (.readRequest w),
      payload := [address] }
  obtain ⟨hroom, hdepth⟩ := Subnet.limit_of_withBackends hs
  have hlength : read.toFlits.length = headerWords + 1 := Packet.length_toFlits read
  have haccepted : (ofActions s (read.toFlits.map .push)).accepted = Packet.stream [read] := by
    rw [Packet.stream_singleton]
    exact accepted_ofActions_push hs _ (by omega)
  have hended := (Flit.openRun_eq_nil_iff _).mp (Packet.openRun_stream [read])
  rw [← haccepted] at hended
  obtain ⟨n, -, hkept, hanswers⟩ := answers_settled hs _ hended
  have hanswered := hanswers i config backend hi
  have hrequests : Subnet.requestsTo link.maxPacketLen i [read] = [read] := by
    refine List.filter_eq_self.mpr fun p hp => ?_
    rw [List.mem_singleton.mp hp]
    simp only [Bool.and_eq_true, decide_eq_true_eq]
    exact ⟨⟨rfl, hroom⟩, rfl⟩
  have hserve : (RegisterUnit.initial config backend).answers [read] =
      [read.reply (.register (.readSuccess w)) (v.toWords w)] := by
    simp [RegisterUnit.serve, RegisterUnit.readValue?, hadmits, hcontent, read]
  rw [hkept, haccepted, Packet.ofStream_stream, hrequests, hserve] at hanswered
  refine ⟨_, _, (List.mem_filter.mp (hanswered ▸ List.mem_singleton_self _)).1, rfl, ?_⟩
  simp [Packet.lenWords, Packet.reply]

end SubnetRun

/-- Take any subnet that can be built and anything that happens to it.

A packet that has left it is too long for the link just if it is the answer that grants a read of
a width that, with the header, is too long.  And no packet that is too long ever leaves just if
the widest access fits, or no register from the boundary on can be read. -/
theorem egress_within_limit_iff {link : LinkSettings} {target : TargetSettings}
    {backends : List MapBackend} {s : Subnet}
    (hs : Subnet.withBackends link target backends = .ok s) :
    (∀ actions, ∀ p ∈ Packet.ofStream (SubnetRun.ofActions s actions).popped,
      (link.maxPacketLen < p.lenWords ↔ ∃ w, p.kind = .register (.readSuccess w) ∧
        link.maxPacketLen < headerWords + w.words)) ∧
    ((∀ actions, ∀ p ∈ Packet.ofStream (SubnetRun.ofActions s actions).popped,
        p.lenWords ≤ link.maxPacketLen) ↔
      headerWords + target.maxWidth.words ≤ link.maxPacketLen ∨
        ∀ config backend address, (config, backend) ∈ Subnet.blueprints link target backends →
          target.boundary ≤ address → backend.content? address = none) := by
  refine ⟨fun actions p hp => SubnetRun.exceeds_iff hs actions hp, fun hfits => ?_, ?_⟩
  · by_contra hnot
    push Not at hnot
    obtain ⟨hlong, config, backend, address, hblueprint, hplace, hreadable⟩ := hnot
    obtain ⟨v, hv⟩ := Option.ne_none_iff_exists'.mp hreadable
    obtain ⟨hboundary, hwidth⟩ := Subnet.config_of_blueprint hblueprint
    have hadmits : (RegisterUnit.initial config backend).admits address target.maxWidth = true := by
      simp [RegisterUnit.admits, RegisterUnit.initial, hboundary, hwidth, hplace]
    have hcontent : (RegisterUnit.initial config backend).content? address = some v := by
      rw [RegisterUnit.content?_initial, hboundary, if_neg (BitVec.not_lt.mpr hplace), hv]
    obtain ⟨actions, p, hp, -, hlength⟩ :=
      SubnetRun.exists_readSuccess hs hblueprint hadmits hcontent
    have hshort := hfits actions p hp
    omega
  · intro hcondition actions p hp
    by_contra hnot
    obtain ⟨hlong, config, backend, address, hblueprint, hplace, hreadable⟩ :=
      SubnetRun.exists_readable_of_exceeds hs actions hp (Nat.not_le.mp hnot)
    rcases hcondition with hwidest | hnone
    · omega
    · rw [hnone config backend address hblueprint hplace] at hreadable
      cases hreadable

/-- A link of four words, on which any access of a word fits, and a control module that admits reads
of eight words. -/
theorem egress_within_limit_iff_wide :
    ∃ s, Subnet.withBackends { maxPacketLen := 4 } { modules := [] } [] = .ok s ∧
      let read : Packet :=
        { dest := 0, src := 0x3ff, kind := .register (.readRequest .w128), payload := [0x200] }
      let actions : List SubnetAction :=
        read.toFlits.map .push ++ (List.replicate 60 [.step, .pop]).flatten
      Packet.ofStream (SubnetRun.ofActions s actions).popped =
          [read.reply (.register (.readSuccess .w128)) [0, 0, 0, 0, 0, 0, 0, 1]] ∧
        (∀ p ∈ Packet.ofStream (SubnetRun.ofActions s actions).popped,
          (4 < p.lenWords ↔ ∃ w, p.kind = .register (.readSuccess w) ∧
            4 < headerWords + w.words)) ∧
        ¬∀ actions, ∀ p ∈ Packet.ofStream (SubnetRun.ofActions s actions).popped,
          p.lenWords ≤ 4 := by
  have hs : Subnet.withBackends { maxPacketLen := 4 } { modules := [] } [] = .ok _ := rfl
  refine ⟨_, hs, ?_, (egress_within_limit_iff hs).1 _, ?_⟩
  · decide +kernel
  · refine (egress_within_limit_iff hs).2.not.mpr ?_
    rintro (hfits | hnone)
    · exact absurd hfits (by decide)
    · have hunreadable := hnone _ _ 0x200 List.mem_cons_self (by decide)
      cases hunreadable

end ProbeNet
