import ProbeNet.Proofs.Stream.Capacity

/-!
# Packets between two endpoints

A writer sends packets through a chain of links and buffers to a reader.  Every neighbour may move
a flit when it likes, or not.  The reader reports the packets as they were sent, in the order in
which they were sent, and the chain never gets stuck with a packet in it.

* A `Chain` is a writer with stores of flits in front of it.  `Chain.flits` is what it holds, and
  `Chain.flits_transfer` says that moving a flit inside of it changes nothing there.
* `ChainRun.Carries` ties a run to what has been sent, and what the reader has read to that.
* `Chain.exists_move` finds something to do in a chain that is not empty, and `Chain.work` counts
  how much of it there is.
-/

namespace ProbeNet

/-- A reader of a stream of packets finds nothing else in it. -/
theorem PacketReader.tick_ne_malformed {r : PacketReader} {read : List Flit}
    (h : r.flits = Flit.openRun read) {input : Option Flit} {ps : List Packet}
    (hstream : read ++ input.toList <+: Packet.stream ps) (e : PacketError) :
    (r.tick input).2 ≠ .malformed e := by
  cases input with
  | none =>
    simp only [tick]
    split <;> exact ReadOutcome.noConfusion
  | some f =>
    cases hlast : f.last with
    | false => simp [tick, hlast]
    | true =>
      have hrun : Flit.openRun read ++ [f] ∈ Flit.runs (read ++ [f]) := by
        rw [Flit.runs_snoc, if_pos hlast]
        exact List.mem_append_right _ (List.mem_singleton_self _)
      obtain ⟨p, -, hp, -⟩ := Packet.exists_of_mem_runs hstream hrun
      simp [tick, hlast, h, hp]

/-! ## Stores -/

/-- What can stand between a writer and a reader. -/
inductive FlitStore where
  | link (l : Link)
  | buffer (b : Buffer)

namespace FlitStore

/-- What a store holds, oldest first. -/
def flits : FlitStore → List Flit
  | .link l => l.slot.toList
  | .buffer b => b.flits

def peek : FlitStore → Option Flit
  | .link l => l.slot
  | .buffer b => b.peek

def ready : FlitStore → Bool
  | .link l => l.ready
  | .buffer b => b.ready

def offer : FlitStore → Option Flit → FlitStore
  | .link l, input => .link (l.offer input)
  | .buffer b, input => .buffer (b.offer input)

def popIf : FlitStore → Bool → FlitStore
  | .link l, taken => .link (l.popIf taken)
  | .buffer b, taken => .buffer (b.popIf taken)

/-- A store that has just been built, for packets of at most `limit` words if it waits for whole
ones. -/
inductive Built (limit : Nat) : FlitStore → Prop where
  | link : Built limit (.link {})
  | streaming {depth : Nat} {b : Buffer} (h : Buffer.streaming depth = .ok b) :
      Built limit (.buffer b)
  | wholePacket {depth maxPacketLen : Nat} {b : Buffer}
      (h : Buffer.wholePacket depth maxPacketLen = .ok b) (hlimit : limit ≤ maxPacketLen) :
      Built limit (.buffer b)

/-- A store that has let the flits `left` go can hold some flits, and if it waits for whole packets,
one of `limit` words. -/
def Sound (limit : Nat) (left : List Flit) : FlitStore → Prop
  | .link _ => True
  | .buffer b => 0 < b.depth ∧ (b.admission = .streaming ∨ b.Whole left ∧ limit ≤ b.depth)

variable {s : FlitStore} {limit : Nat} {left : List Flit}

@[simp] theorem flits_offer (s : FlitStore) (input : Option Flit) :
    (s.offer input).flits = s.flits ++ if s.ready then input.toList else [] := by
  cases s with
  | link l => exact l.slot_offer input
  | buffer b =>
    cases input with
    | none => simp [flits, offer, Buffer.offer]
    | some f => exact b.flits_push f

/-- What a store shows leaves it when it is taken. -/
theorem flits_popIf (s : FlitStore) (taken : Bool) :
    (if taken then s.peek.toList else []) ++ (s.popIf taken).flits = s.flits := by
  cases s with
  | link l => cases taken <;> simp [flits, peek, popIf]
  | buffer b => exact b.flits_popIf taken

theorem Built.flits_eq_nil (h : s.Built limit) : s.flits = [] := by
  cases h with
  | link => rfl
  | streaming h =>
    obtain ⟨rfl, -⟩ := Buffer.of_streaming h
    rfl
  | wholePacket h hlimit =>
    obtain ⟨rfl, -⟩ := Buffer.of_wholePacket h
    rfl

theorem Built.sound (h : s.Built limit) : s.Sound limit [] := by
  cases h with
  | link => trivial
  | streaming h =>
    obtain ⟨rfl, hdepth⟩ := Buffer.of_streaming h
    exact ⟨hdepth, Or.inl rfl⟩
  | @wholePacket depth _ _ h hlimit =>
    obtain ⟨rfl, hdepth, hmax⟩ := Buffer.of_wholePacket h
    exact ⟨hdepth, Or.inr ⟨Buffer.whole_empty depth, Nat.le_trans hlimit hmax⟩⟩

theorem Sound.offer (h : s.Sound limit left) (input : Option Flit) :
    (s.offer input).Sound limit left := by
  cases s with
  | link l => trivial
  | buffer b =>
    cases input with
    | none => exact h
    | some f =>
      obtain ⟨hdepth, hmode⟩ := h
      refine ⟨by rwa [Buffer.offer, Buffer.push_depth], ?_⟩
      rw [Buffer.offer, Buffer.push_admission, Buffer.push_depth]
      exact hmode.imp_right fun hwhole => ⟨hwhole.1.push f, hwhole.2⟩

theorem Sound.popIf (h : s.Sound limit left) (taken : Bool) :
    (s.popIf taken).Sound limit (left ++ if taken then s.peek.toList else []) := by
  cases s with
  | link l => trivial
  | buffer b =>
    obtain ⟨hdepth, hmode⟩ := h
    refine ⟨by rwa [Buffer.popIf_depth], ?_⟩
    rw [Buffer.popIf_depth]
    refine hmode.imp (fun hstreaming => ?_) fun hwhole => ⟨hwhole.1.popIf taken, hwhole.2⟩
    cases taken with
    | false => exact hstreaming
    | true => exact (Buffer.pop_admission b).trans hstreaming

/-! ### Stores on the way of packets -/

variable {packets : List (List Flit)}

/-- A store that is full shows a flit. -/
theorem Sound.peek_of_not_ready (h : s.Sound limit left) (hpackets : Flit.Within limit packets)
    (htaken : left ++ s.flits <+: packets.flatten) (hfull : s.ready = false) :
    s.peek.isSome = true := by
  cases s with
  | link l => simpa [peek, ready, Link.ready] using hfull
  | buffer b =>
    obtain ⟨hdepth, hmode⟩ := h
    have hsize : b.depth ≤ b.size := by
      simpa [ready, Buffer.ready, Buffer.isFull] using hfull
    have hne : b.flits ≠ [] := List.length_pos_iff.mp (Nat.lt_of_lt_of_le hdepth hsize)
    rcases hmode with hstreaming | ⟨hwhole, hlimit⟩
    · rw [peek, Buffer.peek_of_streaming hstreaming]
      exact List.isSome_head?.mpr hne
    · by_contra hnone
      have hless := hwhole.length_lt_of_peek_none (Option.not_isSome_iff_eq_none.mp hnone) hne
        hpackets htaken
      omega

/-- A store that has nothing behind it and shows nothing is empty. -/
theorem Sound.flits_of_peek_none (h : s.Sound limit left) (hpackets : Flit.Within limit packets)
    (hall : left ++ s.flits = packets.flatten) (hpeek : s.peek = none) : s.flits = [] := by
  cases s with
  | link l => simpa [flits, peek] using hpeek
  | buffer b =>
    rcases h.2 with hstreaming | ⟨hwhole, -⟩
    · rw [peek, Buffer.peek_of_streaming hstreaming] at hpeek
      exact List.head?_eq_none_iff.mp hpeek
    · obtain ⟨hopen, hunmarked⟩ := hwhole.unmarked_of_peek_none hpeek
      have hclosed : Flit.openRun (left ++ b.flits) = [] := by
        rw [show left ++ b.flits = _ from hall]
        exact Flit.openRun_flatten fun p hp => (hpackets p hp).1
      rwa [Flit.openRun_append_of_unmarked left hunmarked, hopen, List.nil_append] at hclosed

end FlitStore

/-! ## Chains -/

/-- A writer with stores in front of it.  The first one is the nearest to the reader. -/
inductive Chain where
  | writer (w : PacketWriter)
  | through (s : FlitStore) (source : Chain)

namespace Chain

def ofStores (stores : List FlitStore) : Chain := stores.foldr .through (.writer {})

/-- What a chain holds, in the order in which it comes to the reader. -/
def flits : Chain → List Flit
  | .writer w => w.flits
  | .through s source => s.flits ++ source.flits

def peek : Chain → Option Flit
  | .writer w => w.peek
  | .through s _ => s.peek

def popIf : Chain → Bool → Chain
  | .writer w, taken => .writer (w.popIf taken)
  | .through s source, taken => .through (s.popIf taken) source

def enqueue (p : Packet) : Chain → Chain
  | .writer w => .writer (w.enqueue p)
  | .through s source => .through s (source.enqueue p)

/-- The flit that is shown behind the store with number `i` is presented to this store, and leaves
if it is taken.  Behind the last store this is a step of the writer. -/
def transfer : Nat → Chain → Chain
  | _, .writer w => .writer w
  | 0, .through s source => .through (s.offer source.peek) (source.popIf s.ready)
  | i + 1, .through s source => .through s (source.transfer i)

/-- The buffer behind the store with number `i` takes a step between its neighbours, if it is a
buffer. -/
def tick : Nat → Chain → Chain
  | 0, .through s (.through (.buffer b) source) =>
    let (b', _, taken) := b.tick source.peek s.ready
    .through (s.offer b.peek) (.through (.buffer b') (source.popIf taken))
  | i + 1, .through s source => .through s (source.tick i)
  | _, c => c

variable {c : Chain} {limit : Nat} {left : List Flit} {packets : List (List Flit)}

@[simp] theorem flits_enqueue (c : Chain) (p : Packet) :
    (c.enqueue p).flits = c.flits ++ p.toFlits := by
  induction c with
  | writer w => rfl
  | through s source ih => simp [enqueue, flits, ih]

theorem flits_popIf (c : Chain) (taken : Bool) :
    (if taken then c.peek.toList else []) ++ (c.popIf taken).flits = c.flits := by
  cases c with
  | writer w => exact w.flits_popIf taken
  | through s source => rw [popIf, flits, flits, ← s.flits_popIf taken, List.append_assoc]; rfl

/-- Where nothing is shown nothing leaves. -/
theorem popIf_of_peek_none (h : c.peek = none) (taken : Bool) : c.popIf taken = c := by
  cases taken with
  | false =>
    cases c with
    | writer w => rfl
    | through s source => cases s <;> rfl
  | true =>
    cases c with
    | writer w =>
      obtain ⟨flits⟩ := w
      obtain rfl : flits = [] := List.head?_eq_none_iff.mp h
      rfl
    | through s source =>
      cases s with
      | link l =>
        obtain ⟨slot, transfers, stalls⟩ := l
        obtain rfl : slot = none := h
        rfl
      | buffer b => exact congrArg (through · source) (congrArg _ (Buffer.pop_of_peek_none h))

/-- Moving a flit on inside of a chain neither loses nor reorders anything. -/
@[simp] theorem flits_transfer (i : Nat) (c : Chain) : (c.transfer i).flits = c.flits := by
  induction c generalizing i with
  | writer w => cases i <;> rfl
  | through s source ih =>
    cases i with
    | zero =>
      rw [transfer, flits, flits, s.flits_offer, List.append_assoc, source.flits_popIf s.ready]
    | succ i => rw [transfer, flits, flits, ih]

/-- A step of a buffer is two transfers, one out of it and one into it. -/
theorem tick_cases (i : Nat) (c : Chain) :
    c.tick i = c ∨ c.tick i = (c.transfer i).transfer (i + 1) := by
  induction i generalizing c with
  | zero =>
    cases c with
    | writer w => exact Or.inl rfl
    | through s source =>
      cases source with
      | writer w => exact Or.inl rfl
      | through t source =>
        cases t with
        | link l => exact Or.inl rfl
        | buffer b =>
          right
          have hpop : b.popIf (if s.ready then b.peek else none).isSome = b.popIf s.ready := by
            cases s.ready with
            | false => rfl
            | true => cases hpeek : b.peek <;> simp [Buffer.popIf, Buffer.pop, hpeek]
          have hsource : ∀ free, source.popIf (source.peek.isSome && free) = source.popIf free := by
            intro free
            cases hpeek : source.peek with
            | none => rw [popIf_of_peek_none hpeek, popIf_of_peek_none hpeek]
            | some f => rfl
          simp only [tick, transfer, Buffer.tick, hpop, hsource]
          rfl
  | succ i ih =>
    cases c with
    | writer w => exact Or.inl rfl
    | through s source =>
      exact (ih source).imp (congrArg (through s)) (congrArg (through s))

/-! ### Buffers of whole packets in a chain -/

/-- Every store is sound for what has left it, when the flits `left` have left the chain. -/
def Sound (limit : Nat) : List Flit → Chain → Prop
  | _, .writer _ => True
  | left, .through s source => s.Sound limit left ∧ source.Sound limit (left ++ s.flits)

theorem Sound.popIf (h : c.Sound limit left) (taken : Bool) :
    (c.popIf taken).Sound limit (left ++ if taken then c.peek.toList else []) := by
  cases c with
  | writer w => trivial
  | through s source =>
    refine ⟨h.1.popIf taken, ?_⟩
    rw [List.append_assoc]
    show source.Sound limit (left ++ ((if taken then s.peek.toList else []) ++ _))
    rw [s.flits_popIf taken]
    exact h.2

theorem Sound.enqueue (h : c.Sound limit left) (p : Packet) :
    (c.enqueue p).Sound limit left := by
  induction c generalizing left with
  | writer w => trivial
  | through s source ih => exact ⟨h.1, ih h.2⟩

theorem Sound.transfer (h : c.Sound limit left) (i : Nat) : (c.transfer i).Sound limit left := by
  induction c generalizing left i with
  | writer w => cases i <;> trivial
  | through s source ih =>
    cases i with
    | zero =>
      refine ⟨h.1.offer source.peek, ?_⟩
      rw [s.flits_offer, ← List.append_assoc]
      exact h.2.popIf s.ready
    | succ i => exact ⟨h.1, ih h.2 i⟩

theorem ofStores_of_built {stores : List FlitStore} (h : ∀ s ∈ stores, s.Built limit) :
    (ofStores stores).flits = [] ∧ (ofStores stores).Sound limit [] := by
  induction stores with
  | nil => exact ⟨rfl, trivial⟩
  | cons s stores ih =>
    obtain ⟨hflits, hsound⟩ := ih fun t ht => h t (by simp [ht])
    have hs := h s (by simp)
    have hempty := hs.flits_eq_nil
    refine ⟨?_, hs.sound, ?_⟩
    · show s.flits ++ (ofStores stores).flits = []
      rw [hempty, hflits]
      rfl
    · rw [hempty]
      exact hsound

/-! ### What is left to do in a chain -/

/-- How many moves it takes until all flits have left: each has to go through the stores in front of
it. -/
def work : Chain → Nat
  | .writer w => w.flits.length
  | .through s source => s.flits.length + (source.work + source.flits.length)

theorem work_popIf {f : Flit} (h : c.peek = some f) : (c.popIf true).work < c.work := by
  have hflits := c.flits_popIf true
  cases c with
  | writer w =>
    have hlength := congrArg List.length hflits
    rw [h] at hlength
    simp only [List.length_append, if_true, Option.toList_some, List.length_singleton] at hlength
    show (w.popIf true).flits.length < w.flits.length
    simp only [popIf, flits] at hlength
    omega
  | through s source =>
    have hlength := congrArg List.length (s.flits_popIf true)
    rw [show s.peek = some f from h] at hlength
    simp only [List.length_append, if_true, Option.toList_some, List.length_singleton] at hlength
    show (s.popIf true).flits.length + _ < s.flits.length + _
    omega

/-- A chain that all packets have to go through is empty, or it shows a flit, or a flit can be moved
inside of it. -/
theorem exists_move (hpackets : Flit.Within limit packets) (hsound : c.Sound limit left)
    (hall : left ++ c.flits = packets.flatten) :
    c.flits = [] ∨ c.peek.isSome = true ∨ ∃ i, (c.transfer i).work < c.work := by
  induction c generalizing left with
  | writer w =>
    by_cases hempty : w.flits = []
    · exact Or.inl hempty
    · exact Or.inr (Or.inl (List.isSome_head?.mpr hempty))
  | through s source ih =>
    obtain ⟨hs, hsource⟩ := hsound
    rw [flits, ← List.append_assoc] at hall
    rcases ih hsource hall with hempty | hshown | ⟨i, hless⟩
    · -- Nothing is behind the store: what it hides would be a packet without an end.
      rw [hempty, List.append_nil] at hall
      cases hpeek : s.peek with
      | none =>
        left
        rw [flits, hempty, hs.flits_of_peek_none hpackets hall hpeek]
        rfl
      | some f => exact Or.inr (Or.inl (by simp [peek, hpeek]))
    · cases hready : s.ready with
      | true =>
        right; right
        obtain ⟨f, hpeek⟩ := Option.isSome_iff_exists.mp hshown
        have hless := work_popIf hpeek
        have hlength := congrArg List.length (source.flits_popIf true)
        refine ⟨0, ?_⟩
        simp only [hpeek, List.length_append, if_true, Option.toList_some,
          List.length_singleton] at hlength
        simp only [transfer, work, s.flits_offer, hready, hpeek, if_true, Option.toList_some,
          List.length_append, List.length_singleton]
        omega
      | false =>
        right; left
        exact hs.peek_of_not_ready hpackets ⟨source.flits, hall⟩ hready
    · right; right
      refine ⟨i + 1, ?_⟩
      simp only [transfer, work, flits_transfer]
      omega

end Chain

/-! ## Runs -/

/-- What happens in a chain with a writer and a reader. -/
inductive ChainAction where
  /-- A packet is handed to the writer. -/
  | enqueue (p : Packet)
  /-- A flit is moved into the store with number `i`, from the store behind it or the writer. -/
  | transfer (i : Nat)
  /-- The buffer behind the store with number `i` takes a step. -/
  | tick (i : Nat)
  /-- The reader takes a step. -/
  | read

/-- A chain with a reader in front of it, and what they have done. -/
structure ChainRun where
  chain : Chain
  reader : PacketReader
  /-- The packets that the writer has got. -/
  enqueued : List Packet := []
  /-- The flits that the reader has read. -/
  read : List Flit := []
  /-- What the reader has said in each of its steps. -/
  outcomes : List ReadOutcome := []

namespace ChainRun

/-- The run after one more action. -/
def act (r : ChainRun) : ChainAction → ChainRun
  | .enqueue p => { r with chain := r.chain.enqueue p, enqueued := r.enqueued ++ [p] }
  | .transfer i => { r with chain := r.chain.transfer i }
  | .tick i => { r with chain := r.chain.tick i }
  | .read =>
    { r with
      chain := r.chain.popIf true
      reader := (r.reader.tick r.chain.peek).1
      read := r.read ++ r.chain.peek.toList
      outcomes := r.outcomes ++ [(r.reader.tick r.chain.peek).2] }

/-- The run of some actions, through stores to a reader with a timeout. -/
def ofActions (stores : List FlitStore) (timeout : Nat) (actions : List ChainAction) : ChainRun :=
  actions.foldl act { chain := .ofStores stores, reader := { timeout } }

/-- The packets that the reader has reported. -/
def reported (r : ChainRun) : List Packet := r.outcomes.filterMap ReadOutcome.packet?

/-- What has been sent has been read or is on the way, and the reader has reported what it has
read. -/
structure Carries (r : ChainRun) (limit : Nat) : Prop where
  flow : r.read ++ r.chain.flits = Packet.stream r.enqueued
  sound : r.chain.Sound limit r.read
  reader : r.reader.flits = Flit.openRun r.read
  reported : r.reported = Packet.ofStream r.read
  wellFormed : ∀ e, ReadOutcome.malformed e ∉ r.outcomes

variable {r : ChainRun} {limit : Nat}

theorem carries_initial {stores : List FlitStore} (h : ∀ s ∈ stores, s.Built limit)
    (timeout : Nat) :
    Carries { chain := .ofStores stores, reader := { timeout } } limit := by
  obtain ⟨hflits, hsound⟩ := Chain.ofStores_of_built h
  exact ⟨hflits, hsound, rfl, rfl, fun e => List.not_mem_nil⟩

theorem Carries.transfer (h : r.Carries limit) (i : Nat) : (r.act (.transfer i)).Carries limit :=
  ⟨(congrArg (r.read ++ ·) (Chain.flits_transfer i r.chain)).trans h.flow, h.sound.transfer i,
    h.reader, h.reported, h.wellFormed⟩

theorem Carries.tick (h : r.Carries limit) (i : Nat) : (r.act (.tick i)).Carries limit := by
  rcases Chain.tick_cases i r.chain with hsame | htwo
  · rw [act, hsame]
    exact h
  · rw [act, htwo]
    exact (h.transfer i).transfer (i + 1)

theorem Carries.enqueue (h : r.Carries limit) (p : Packet) :
    (r.act (.enqueue p)).Carries limit := by
  refine ⟨?_, h.sound.enqueue p, h.reader, h.reported, h.wellFormed⟩
  show r.read ++ (r.chain.enqueue p).flits = Packet.stream (r.enqueued ++ [p])
  rw [Chain.flits_enqueue, ← List.append_assoc, h.flow, Packet.stream_append,
    Packet.stream_singleton]

theorem Carries.read (h : r.Carries limit) : (r.act .read).Carries limit := by
  have hflow : (r.read ++ r.chain.peek.toList) ++ (r.chain.popIf true).flits =
      Packet.stream r.enqueued := by
    rw [List.append_assoc, ← h.flow, ← r.chain.flits_popIf true]
    rfl
  refine ⟨hflow, h.sound.popIf true, PacketReader.flits_tick h.reader _, ?_, fun e he => ?_⟩
  · have hreported : (r.act .read).reported =
        r.reported ++ (r.reader.tick r.chain.peek).2.packet?.toList := by
      show (r.outcomes ++ [_]).filterMap _ = r.outcomes.filterMap _ ++ _
      rw [List.filterMap_append]
      cases hpacket : (r.reader.tick r.chain.peek).2.packet? <;> simp [hpacket]
    rw [hreported, h.reported]
    exact (PacketReader.packet?_tick h.reader _).symm
  · rcases List.mem_append.mp he with hbefore | hnow
    · exact h.wellFormed e hbefore
    · exact PacketReader.tick_ne_malformed h.reader ⟨_, hflow⟩ e (List.mem_singleton.mp hnow).symm

theorem Carries.act (h : r.Carries limit) (action : ChainAction) :
    (r.act action).Carries limit := by
  cases action with
  | enqueue p => exact h.enqueue p
  | transfer i => exact h.transfer i
  | tick i => exact h.tick i
  | read => exact h.read

theorem Carries.after (h : r.Carries limit) (actions : List ChainAction) :
    (actions.foldl ChainRun.act r).Carries limit := by
  induction actions generalizing r with
  | nil => exact h
  | cons action actions ih => exact ih (h.act action)

/-! ### What comes out -/

theorem Carries.reported_prefix (h : r.Carries limit) : r.reported <+: r.enqueued := by
  rw [h.reported, ← Packet.ofStream_stream r.enqueued, ← h.flow]
  exact Packet.ofStream_prefix (List.prefix_append _ _)

/-- When nothing is on the way any more everything has been reported. -/
theorem Carries.reported_of_empty (h : r.Carries limit) (hempty : r.chain.flits = []) :
    r.reader.inPacket = false ∧ r.reported = r.enqueued := by
  have hread : r.read = Packet.stream r.enqueued := by
    rw [← h.flow, hempty, List.append_nil]
  refine ⟨?_, ?_⟩
  · rw [PacketReader.inPacket, h.reader, hread, Packet.openRun_stream]
    rfl
  · rw [h.reported, hread, Packet.ofStream_stream]

/-- As long as something is on the way there is a move that brings it nearer to its end. -/
theorem Carries.exists_move (h : r.Carries limit) (hfit : ∀ p ∈ r.enqueued, p.lenWords ≤ limit)
    (hempty : r.chain.flits ≠ []) :
    ∃ action, (r.act action).enqueued = r.enqueued ∧
      (r.act action).chain.work < r.chain.work := by
  have hpackets : Flit.Within limit (r.enqueued.map Packet.toFlits) := by
    intro run hrun
    obtain ⟨p, hp, rfl⟩ := List.mem_map.mp hrun
    exact ⟨Packet.isRun_toFlits p, by rw [Packet.length_toFlits]; exact hfit p hp⟩
  have hall : r.read ++ r.chain.flits = (r.enqueued.map Packet.toFlits).flatten :=
    h.flow.trans List.flatMap_def
  rcases Chain.exists_move hpackets h.sound hall with hnone | hshown | ⟨i, hless⟩
  · exact absurd hnone hempty
  · obtain ⟨f, hpeek⟩ := Option.isSome_iff_exists.mp hshown
    exact ⟨.read, rfl, Chain.work_popIf hpeek⟩
  · exact ⟨.transfer i, rfl, hless⟩

/-- The chain can be emptied without another packet being sent. -/
theorem Carries.drain (h : r.Carries limit) (hfit : ∀ p ∈ r.enqueued, p.lenWords ≤ limit) :
    ∃ moves : List ChainAction, (moves.foldl ChainRun.act r).enqueued = r.enqueued ∧
      (moves.foldl ChainRun.act r).chain.flits = [] := by
  induction hwork : r.chain.work using Nat.strong_induction_on generalizing r with
  | h work ih =>
    by_cases hempty : r.chain.flits = []
    · exact ⟨[], rfl, hempty⟩
    · obtain ⟨action, hsame, hless⟩ := h.exists_move hfit hempty
      obtain ⟨moves, hkept, hdone⟩ := ih _ (hwork ▸ hless) (h.act action) (hsame ▸ hfit) rfl
      exact ⟨action :: moves, hkept.trans hsame, hdone⟩

end ChainRun

/-- Take a chain of any number of links and buffers that have just been built, buffers that show
flits at once and buffers that wait for whole packets of up to some length, with a writer behind it
and a reader with any timeout in front of it.  Take anything that can happen then: packets that are
handed to the writer, steps of the writer and of the reader, and flits that are moved on along the
chain, in any order.

The packets that the reader has reported are the first ones that the writer has got, as they were and
in order, and it has never come upon anything else.  When the writer and the chain are empty then so
is the reader, and it has reported all packets.  And unless a packet is longer than what the buffers
were built for, this can always be reached: some more steps bring everything to the reader. -/
theorem chain_delivers_packets {limit : Nat} {stores : List FlitStore}
    (hbuilt : ∀ s ∈ stores, s.Built limit) (timeout : Nat) (actions : List ChainAction) :
    let r := ChainRun.ofActions stores timeout actions
    r.reported <+: r.enqueued ∧ (∀ e, ReadOutcome.malformed e ∉ r.outcomes) ∧
      (r.chain.flits = [] → r.reader.inPacket = false ∧ r.reported = r.enqueued) ∧
      ((∀ p ∈ r.enqueued, p.lenWords ≤ limit) →
        ∃ moves, (ChainRun.ofActions stores timeout (actions ++ moves)).enqueued = r.enqueued ∧
          (ChainRun.ofActions stores timeout (actions ++ moves)).reported = r.enqueued) := by
  intro r
  have h : r.Carries limit := (ChainRun.carries_initial hbuilt timeout).after actions
  refine ⟨h.reported_prefix, h.wellFormed, h.reported_of_empty, fun hfit => ?_⟩
  obtain ⟨moves, hkept, hempty⟩ := h.drain hfit
  refine ⟨moves, ?_⟩
  have hmore : ChainRun.ofActions stores timeout (actions ++ moves) =
      moves.foldl ChainRun.act r := List.foldl_append
  rw [hmore]
  exact ⟨hkept, ((h.after moves).reported_of_empty hempty).2.trans hkept⟩

/-- Two packets on the way through a link, a buffer of whole packets and a buffer of one flit.  The
first one has been reported, the second is spread over the chain, and it will be reported. -/
theorem chain_delivers_packets_midway :
    let first : Packet := { dest := 0x3ff, src := 1, kind := .event 0, payload := [7, 8] }
    let second : Packet := { dest := 0x3ff, src := 2, kind := .event 0, payload := [9] }
    let stores : List FlitStore :=
      [.link {}, .buffer (.empty 5 .wholePacket), .buffer (.empty 1 .streaming)]
    let actions : List ChainAction :=
      .enqueue first :: (List.replicate 5 [.transfer 2, .transfer 1]).flatten ++
        .enqueue second :: (List.replicate 5 [.transfer 0, .read]).flatten ++
          [.transfer 2, .tick 1, .transfer 2, .read]
    let r := ChainRun.ofActions stores 2 actions
    (∀ s ∈ stores, s.Built 5) ∧ (∀ p ∈ r.enqueued, p.lenWords ≤ 5) ∧ r.reported = [first] ∧
      r.reported <+: [first, second] ∧ r.chain.flits ≠ [] ∧
      ∃ moves, (ChainRun.ofActions stores 2 (actions ++ moves)).reported = [first, second] := by
  intro first second stores actions r
  have hbuilt : ∀ s ∈ stores, s.Built 5 := by
    simp only [stores, List.forall_mem_cons]
    have hwhole : Buffer.wholePacket 5 5 = .ok (.empty 5 .wholePacket) := rfl
    have hstreaming : Buffer.streaming 1 = .ok (.empty 1 .streaming) := rfl
    exact ⟨.link, .wholePacket hwhole (Nat.le_refl 5), .streaming hstreaming, by simp⟩
  have henqueued : r.enqueued = [first, second] := rfl
  have hfit : ∀ p ∈ r.enqueued, p.lenWords ≤ 5 := by
    rw [henqueued]
    decide
  obtain ⟨hbegins, -, -, hmore⟩ := chain_delivers_packets hbuilt 2 actions
  obtain ⟨moves, -, hmoves⟩ := hmore hfit
  exact ⟨hbuilt, hfit, by decide, hbegins, by decide, moves, hmoves⟩

end ProbeNet
