import ProbeNet.Flow.Buffer
import ProbeNet.Flow.Endpoint
import ProbeNet.Flow.Link
import ProbeNet.Proofs.Stream.Framing

/-!
# What links, readers and buffers hold

A link or a buffer takes a flit when it is ready and otherwise leaves it where
it is, and what it holds leaves in order.  A reader holds the open run of what
it has read, a writer the flits of its packets that have not left.  Behind a buffer of whole packets
the flits that have left are a matter of their own: `Buffer.Whole` says that
it shows its head unless it holds the beginning of a packet and nothing else.
-/

namespace ProbeNet

/-! ## Links -/

namespace Link

@[simp] theorem slot_push (l : Link) (f : Flit) :
    (l.push f).slot.toList = l.slot.toList ++ if l.ready then [f] else [] := by
  cases hslot : l.slot <;> simp [push, ready, hslot]

/-- A link takes the flit that it is offered if it is ready. -/
@[simp] theorem slot_offer (l : Link) (input : Option Flit) :
    (l.offer input).slot.toList = l.slot.toList ++ if l.ready then input.toList else [] := by
  cases input with
  | none => simp [offer]
  | some f => exact slot_push l f

/-- An occupied link keeps its flit. -/
theorem offer_of_isSome {l : Link} (h : l.slot.isSome = true) (input : Option Flit) :
    (l.offer input).slot = l.slot := by
  obtain ⟨f, hslot⟩ := Option.isSome_iff_exists.mp h
  cases input <;> simp [offer, push, ready, hslot]

@[simp] theorem slot_popIf (l : Link) (taken : Bool) :
    (l.popIf taken).slot = if taken then none else l.slot := by
  cases taken <;> rfl

end Link

/-! ## Readers and writers -/

theorem PacketReader.flits_tick {r : PacketReader} {read : List Flit}
    (h : r.flits = Flit.openRun read) (input : Option Flit) :
    (r.tick input).1.flits = Flit.openRun (read ++ input.toList) := by
  cases input with
  | none =>
    simp only [tick, Option.toList_none, List.append_nil]
    split <;> exact h
  | some f =>
    rw [Option.toList_some, Flit.openRun_snoc, ← h]
    cases hlast : f.last <;> simp [tick, hlast]

/-- The packet that a reader has just read. -/
def ReadOutcome.packet? : ReadOutcome → Option Packet
  | .packet p => some p
  | .pending | .malformed _ | .timedOut => none

/-- Without a flit that is marked last no packet is read. -/
theorem PacketReader.packet?_of_unmarked {r : PacketReader} {input : Option Flit}
    (h : ∀ f ∈ input, f.last = false) : (r.tick input).2.packet? = none := by
  cases input with
  | none =>
    simp only [tick]
    split <;> rfl
  | some f => simp [tick, h f rfl, ReadOutcome.packet?]

/-- A reader reads the packets of the stream that it takes, each with its last flit. -/
theorem PacketReader.packet?_tick {r : PacketReader} {read : List Flit}
    (h : r.flits = Flit.openRun read) (input : Option Flit) :
    Packet.ofStream (read ++ input.toList) =
      Packet.ofStream read ++ (r.tick input).2.packet?.toList := by
  cases input with
  | none =>
    rw [packet?_of_unmarked (by simp)]
    simp
  | some f =>
    rw [Option.toList_some, Packet.ofStream_snoc, ← h]
    cases hlast : f.last with
    | false => simp [tick, hlast, ReadOutcome.packet?]
    | true =>
      cases hp : Packet.ofFlits (r.flits ++ [f]) <;>
        simp [tick, hlast, hp, ReadOutcome.packet?, Except.toOption]

/-- A reader that has just read a packet holds nothing. -/
theorem PacketReader.flits_of_packet? {r : PacketReader} {input : Option Flit} {p : Packet}
    (h : (r.tick input).2.packet? = some p) : (r.tick input).1.flits = [] := by
  cases input with
  | none =>
    simp only [tick] at h
    split at h <;> cases h
  | some f =>
    cases hlast : f.last with
    | false => simp [tick, hlast, ReadOutcome.packet?] at h
    | true => simp [tick, hlast]

@[simp] theorem PacketWriter.flits_enqueueAll (w : PacketWriter) (ps : List Packet) :
    (w.enqueueAll ps).flits = w.flits ++ Packet.stream ps := by
  induction ps generalizing w with
  | nil => simp [enqueueAll, Packet.stream]
  | cons p ps ih =>
    rw [show w.enqueueAll (p :: ps) = (w.enqueue p).enqueueAll ps from rfl, ih]
    simp [enqueue, Packet.stream]

/-- What a sink takes leaves the writer, in order. -/
theorem PacketWriter.flits_popIf (w : PacketWriter) (taken : Bool) :
    (if taken then w.peek.toList else []) ++ (w.popIf taken).flits = w.flits := by
  cases taken with
  | false => rfl
  | true => cases hw : w.flits <;> simp [peek, popIf, pop, hw]

/-! ## Buffers -/

namespace Buffer

variable {b : Buffer} {left : List Flit} {f : Flit}

theorem push_of_not_ready (h : b.ready = false) (f : Flit) : b.push f = b := by
  simp [push, h]

@[simp] theorem flits_push (b : Buffer) (f : Flit) :
    (b.push f).flits = b.flits ++ if b.ready then [f] else [] := by
  cases h : b.ready <;> simp [push, h]

@[simp] theorem push_admission (b : Buffer) (f : Flit) : (b.push f).admission = b.admission := by
  unfold push
  split <;> rfl

@[simp] theorem push_depth (b : Buffer) (f : Flit) : (b.push f).depth = b.depth := by
  unfold push
  split <;> rfl

@[simp] theorem pop_admission (b : Buffer) : b.pop.admission = b.admission := by
  unfold pop
  split <;> rfl

@[simp] theorem pop_depth (b : Buffer) : b.pop.depth = b.depth := by
  unfold pop
  split <;> rfl

theorem popIf_depth (b : Buffer) (taken : Bool) : (b.popIf taken).depth = b.depth := by
  cases taken
  · rfl
  · exact pop_depth b

/-- The flit that a buffer shows is the oldest, and it is the one that leaves. -/
theorem flits_of_peek (h : b.peek = some f) : b.flits = f :: b.pop.flits := by
  have hhead : b.flits.head? = some f := by
    unfold peek at h
    split at h
    · exact h
    · cases h
  have hpop : b.pop.flits = b.flits.tail := by
    rw [pop, h]
  obtain ⟨rest, hrest⟩ := List.head?_eq_some_iff.mp hhead
  rw [hpop, hrest]
  rfl

/-- What a source shows leaves the buffer when it is taken. -/
theorem flits_popIf (b : Buffer) (taken : Bool) :
    (if taken then b.peek.toList else []) ++ (b.popIf taken).flits = b.flits := by
  cases taken with
  | false => rfl
  | true =>
    cases hpeek : b.peek with
    | none => simp [popIf, pop, hpeek]
    | some f => simp [popIf, flits_of_peek hpeek]

theorem pop_of_peek_none (h : b.peek = none) : b.pop = b := by
  rw [pop, h]

theorem peek_of_streaming (h : b.admission = .streaming) : b.peek = b.flits.head? := by
  simp [peek, headVisible, h]

/-- A buffer that shows flits at once can hold one. -/
theorem of_streaming {depth : Nat} (h : streaming depth = .ok b) :
    b = empty depth .streaming ∧ 0 < depth := by
  unfold streaming at h
  split_ifs at h with hzero
  exact ⟨(Except.ok.inj h).symm, Nat.pos_of_ne_zero hzero⟩

/-! ### Buffers of whole packets -/

/-- A buffer of whole packets can hold a flit, and a packet of the length that it was built for. -/
theorem of_wholePacket {depth maxPacketLen : Nat} (h : wholePacket depth maxPacketLen = .ok b) :
    b = empty depth .wholePacket ∧ 0 < depth ∧ maxPacketLen ≤ depth := by
  unfold wholePacket at h
  split_ifs at h with hzero hshallow
  exact ⟨(Except.ok.inj h).symm, Nat.pos_of_ne_zero hzero, Nat.not_lt.mp hshallow⟩

/-- A buffer of whole packets counts the packets that it holds the end of, and
when there is none, nothing has left of the packet that it holds. -/
structure Whole (b : Buffer) (left : List Flit) : Prop where
  admission : b.admission = .wholePacket
  complete : b.complete = b.flits.countP Flit.last
  between : b.complete = 0 → Flit.openRun left = []

theorem whole_empty (depth : Nat) : (empty depth .wholePacket).Whole [] :=
  ⟨rfl, rfl, fun _ => rfl⟩

theorem Whole.push (h : b.Whole left) (f : Flit) : (b.push f).Whole left := by
  obtain ⟨hadmission, hcomplete, hbetween⟩ := h
  unfold Buffer.push
  split
  · refine ⟨hadmission, ?_, fun hzero => hbetween (Nat.eq_zero_of_add_eq_zero_right hzero)⟩
    cases hlast : f.last <;> simp [hcomplete, hlast]
  · exact ⟨hadmission, hcomplete, hbetween⟩

/-- A buffer of whole packets shows a flit only if it holds the end of a packet. -/
theorem Whole.complete_pos (h : b.Whole left) (hpeek : b.peek = some f) : 0 < b.complete := by
  unfold peek headVisible at hpeek
  rw [h.admission] at hpeek
  by_contra hzero
  simp [hzero] at hpeek

/-- It shows its oldest flit if it holds the end of a packet. -/
theorem Whole.peek_eq_head? (h : b.Whole left) (hlast : ∃ g ∈ b.flits, g.last = true) :
    b.peek = b.flits.head? := by
  have hvisible : 0 < b.complete := by
    rw [h.complete]
    exact List.countP_pos_iff.mpr hlast
  simp [peek, headVisible, h.admission, hvisible]

theorem Whole.pop (h : b.Whole left) (hpeek : b.peek = some f) : b.pop.Whole (left ++ [f]) := by
  have hflits := flits_of_peek hpeek
  have hvisible := h.complete_pos hpeek
  obtain ⟨hadmission, hcomplete, -⟩ := h
  have hcount : b.pop.complete = b.complete - f.last.toNat := by
    rw [Buffer.pop, hpeek]
  rw [hflits] at hcomplete
  refine ⟨by rw [pop_admission, hadmission], ?_, fun hzero => ?_⟩
  · rw [hcount, hcomplete]
    cases hlast : f.last <;> simp [hlast]
  · rw [Flit.openRun_snoc]
    cases hlast : f.last with
    | true => rfl
    | false =>
      rw [hcount, hlast] at hzero
      simp at hzero
      omega

theorem Whole.popIf (h : b.Whole left) (taken : Bool) :
    (b.popIf taken).Whole (left ++ if taken then b.peek.toList else []) := by
  cases taken with
  | false => simpa [Buffer.popIf] using h
  | true =>
    cases hpeek : b.peek with
    | none => simpa [Buffer.popIf, pop_of_peek_none hpeek] using h
    | some f => simpa [Buffer.popIf] using h.pop hpeek

/-- What a buffer hides is the beginning of a packet. -/
theorem Whole.unmarked_of_peek_none (h : b.Whole left) (hpeek : b.peek = none) :
    Flit.openRun left = [] ∧ ∀ f ∈ b.flits, f.last = false := by
  obtain ⟨hadmission, hcomplete, hbetween⟩ := h
  have hzero : b.complete = 0 := by
    by_contra hne
    have hpos : 0 < b.complete := Nat.pos_of_ne_zero hne
    unfold peek headVisible at hpeek
    rw [hadmission] at hpeek
    simp only [hpos, decide_true, if_true] at hpeek
    rw [List.head?_eq_none_iff.mp hpeek] at hcomplete
    exact hne hcomplete
  refine ⟨hbetween hzero, fun f hf => ?_⟩
  rw [hzero] at hcomplete
  simpa using List.countP_eq_zero.mp hcomplete.symm f hf

end Buffer

end ProbeNet
