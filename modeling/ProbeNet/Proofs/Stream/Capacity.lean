import ProbeNet.Proofs.Stream.Atomicity

/-!
# Buffers of whole packets do not wedge

A buffer that hides its head waits for the rest of a packet, and a buffer that is full takes
nothing.  If both came together the packet would never end.  This cannot be when the buffer is at
least as deep as every packet is long: what is hidden is the beginning of one packet, and its end
is still to come.

* `Flit.length_openRun_lt` bounds the packet at the end of a stream that is not complete, and
  `Buffer.Whole.length_lt_of_peek_none` what a buffer hides.
* `Buffer.packetSize_of_isRun` and `Buffer.packetSize_of_unmarked` say what the buffer reports as
  the size of its oldest packet.
-/

namespace ProbeNet

/-- The packets are whole, and none of them is longer than `limit`. -/
def Flit.Within (limit : Nat) (packets : List (List Flit)) : Prop :=
  ∀ p ∈ packets, IsRun p ∧ p.length ≤ limit

/-- In the middle of a packet at least its last flit is still to come. -/
theorem Flit.length_openRun_lt {limit : Nat} {packets : List (List Flit)} {fs : List Flit}
    (hpackets : Within limit packets) (h : fs <+: packets.flatten) (hne : openRun fs ≠ []) :
    (openRun fs).length < limit := by
  obtain ⟨rest, hrest⟩ := h
  have hclosed : openRun (fs ++ rest) = [] := by
    rw [hrest]
    exact openRun_flatten fun p hp => (hpackets p hp).1
  have hend : ∃ f ∈ rest, f.last = true := by
    by_contra hnone
    simp only [not_exists, not_and, Bool.not_eq_true] at hnone
    rw [openRun_append_of_unmarked fs hnone] at hclosed
    exact hne (List.append_eq_nil_iff.mp hclosed).1
  obtain ⟨run, hrun, more, hmore⟩ := exists_isRun_prefix hend
  have hmem : openRun fs ++ run ∈ packets := by
    rw [← runs_flatten fun p hp => (hpackets p hp).1, ← hrest, ← hmore]
    refine (Flit.runs_prefix ?_).subset (hrun.mem_runs_append fs)
    exact ⟨more, List.append_assoc ..⟩
  have hlength := (hpackets _ hmem).2
  have hpositive := List.length_pos_iff.mpr hrun.ne_nil
  rw [List.length_append] at hlength
  omega

namespace Buffer

variable {b : Buffer} {left : List Flit}

/-- What a buffer hides is shorter than a packet. -/
theorem Whole.length_lt_of_peek_none (h : b.Whole left) (hpeek : b.peek = none)
    (hne : b.flits ≠ []) {limit : Nat} {packets : List (List Flit)}
    (hpackets : Flit.Within limit packets) (htaken : left ++ b.flits <+: packets.flatten) :
    b.size < limit := by
  obtain ⟨hopen, hunmarked⟩ := h.unmarked_of_peek_none hpeek
  have hheld : Flit.openRun (left ++ b.flits) = b.flits := by
    rw [Flit.openRun_append_of_unmarked left hunmarked, hopen, List.nil_append]
  have hlength := Flit.length_openRun_lt hpackets htaken (by rwa [hheld])
  rwa [hheld] at hlength

/-! ## The size of the oldest packet -/

theorem packetSize_le (b : Buffer) : b.packetSize ≤ b.size := by
  unfold packetSize
  split
  · rename_i i hi
    exact (List.findIdx?_eq_some_iff_findIdx_eq.mp hi).1
  · exact Nat.le_refl _

theorem packetSize_of_isRun {run rest : List Flit} (hrun : Flit.IsRun run)
    (hflits : b.flits = run ++ rest) : b.packetSize = run.length := by
  obtain ⟨xs, f, rfl, hlast, hxs⟩ := Flit.isRun_iff.mp hrun
  have hbefore : xs.findIdx? Flit.last = none := by simpa using hxs
  have hindex : b.flits.findIdx? Flit.last = some xs.length := by
    simp [hflits, List.findIdx?_append, List.findIdx?_cons, hbefore, hlast]
  simp [packetSize, hindex]

theorem packetSize_of_unmarked (h : ∀ f ∈ b.flits, f.last = false) : b.packetSize = b.size := by
  have hindex : b.flits.findIdx? Flit.last = none := by simpa using h
  rw [packetSize, hindex]

end Buffer

/-- Take any buffer of whole packets that can be built, and any operations on it such that the flits
that it takes belong to whole packets that are not longer than it was built for.  A flit that it
refuses stays with its producer, so it belongs to none of them until it is taken.

When the buffer is full it shows its head, so a flit can leave.  And the size that it reports is
never more than what it holds.  While it holds the end of a packet, it is the number of flits that
are left of the oldest one, up to its last; while it holds none, it is the number of all its
flits. -/
theorem wholePacket_never_wedges {depth maxPacketLen : Nat} {b : Buffer}
    (hb : Buffer.wholePacket depth maxPacketLen = .ok b) {packets : List (List Flit)}
    (hpackets : ∀ p ∈ packets, Flit.IsRun p ∧ p.length ≤ maxPacketLen)
    (actions : List BufferAction)
    (htaken : (BufferRun.ofActions b actions).accepted <+: packets.flatten) :
    let r := BufferRun.ofActions b actions
    (r.buffer.isFull = true → r.buffer.headVisible = true ∧ ∃ f, r.buffer.peek = some f) ∧
      r.buffer.packetSize ≤ r.buffer.size ∧
      (0 < r.buffer.complete → ∃ run rest, r.buffer.flits = run ++ rest ∧ Flit.IsRun run ∧
        Flit.openRun r.popped ++ run ∈ packets ∧ r.buffer.packetSize = run.length) ∧
      (r.buffer.complete = 0 → r.buffer.packetSize = r.buffer.size) := by
  intro r
  have h : r.Keeps depth := BufferRun.keeps_ofActions hb actions
  obtain ⟨-, hdepth⟩ := Buffer.of_wholePacket hb
  have hcomplete := h.whole.complete
  refine ⟨fun hfull => ?_, r.buffer.packetSize_le, fun hpositive => ?_, fun hzero => ?_⟩
  · have hsize : depth ≤ r.buffer.size := by
      rw [Buffer.isFull, h.capacity] at hfull
      exact of_decide_eq_true hfull
    have hpeek : r.buffer.peek ≠ none := by
      intro hhidden
      have hne : r.buffer.flits ≠ [] :=
        List.length_pos_iff.mp (Nat.lt_of_lt_of_le hdepth.1 hsize)
      have hless := h.whole.length_lt_of_peek_none hhidden hne hpackets (h.flow ▸ htaken)
      omega
    obtain ⟨f, hf⟩ := Option.ne_none_iff_exists'.mp hpeek
    refine ⟨?_, f, hf⟩
    by_contra hhidden
    exact hpeek (if_neg hhidden)
  · rw [hcomplete] at hpositive
    obtain ⟨run, hrun, rest, hrest⟩ :=
      Flit.exists_isRun_prefix (List.countP_pos_iff.mp hpositive)
    refine ⟨run, rest, hrest.symm, hrun, ?_, Buffer.packetSize_of_isRun hrun hrest.symm⟩
    rw [← Flit.runs_flatten fun p hp => (hpackets p hp).1]
    refine (Flit.runs_prefix (List.IsPrefix.trans ?_ htaken)).subset
      (hrun.mem_runs_append r.popped)
    rw [h.flow]
    exact (List.prefix_append_right_inj _).mpr ⟨rest, hrest⟩
  · rw [hcomplete] at hzero
    exact Buffer.packetSize_of_unmarked fun f hf => by
      simpa using List.countP_eq_zero.mp hzero f hf

/-- A buffer of three flits that is full: it holds a packet of which one flit has left, and the
beginning of another one, whose next flit it refuses.  It shows its head, and it reports one
flit. -/
theorem wholePacket_never_wedges_full :
    let actions : List BufferAction :=
      [.push ⟨1, false⟩, .push ⟨2, true⟩, .tick (some ⟨3, false⟩) true, .push ⟨4, false⟩,
        .push ⟨5, true⟩]
    let packets : List (List Flit) :=
      [[⟨1, false⟩, ⟨2, true⟩], [⟨3, false⟩, ⟨4, false⟩, ⟨5, true⟩]]
    ∃ b, Buffer.wholePacket 3 3 = .ok b ∧
      (∀ p ∈ packets, Flit.IsRun p ∧ p.length ≤ 3) ∧
      (BufferRun.ofActions b actions).accepted <+: packets.flatten ∧
      (BufferRun.ofActions b actions).refused = [⟨5, true⟩] ∧
      (BufferRun.ofActions b actions).buffer.isFull = true ∧
      (∃ f, (BufferRun.ofActions b actions).buffer.peek = some f) ∧
      ∃ run rest, (BufferRun.ofActions b actions).buffer.flits = run ++ rest ∧
        (BufferRun.ofActions b actions).buffer.packetSize = run.length := by
  intro actions packets
  have hb : Buffer.wholePacket 3 3 = .ok (.empty 3 .wholePacket) := rfl
  have hpackets : ∀ p ∈ packets, Flit.IsRun p ∧ p.length ≤ 3 := by
    simp only [packets, List.forall_mem_cons]
    exact ⟨⟨rfl, by decide⟩, ⟨rfl, by decide⟩, by simp⟩
  have htaken : (BufferRun.ofActions (.empty 3 .wholePacket) actions).accepted <+:
      packets.flatten := ⟨[⟨5, true⟩], rfl⟩
  obtain ⟨hshown, -, hsize, -⟩ := wholePacket_never_wedges hb hpackets actions htaken
  obtain ⟨run, rest, hflits, -, -, hlength⟩ := hsize (by decide)
  exact ⟨_, hb, hpackets, htaken, rfl, rfl, (hshown rfl).2, run, rest, hflits, hlength⟩

end ProbeNet
