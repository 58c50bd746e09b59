import Mathlib.Data.List.Induction
import ProbeNet.Proofs.Stream.Merging

/-!
# An arbiter between queues and a sink

Flits arrive in the queues when they like and the sink is ready when it likes.  The sink gets one
whole packet after the other, each from one queue, and no flit is lost.

* `Passage.marked` is what the sink has seen, each flit with the queue that it is from, and
  `ofSource_marked` what it has seen of one queue.
* `ArbiterBench.tick_cases` is all that a tick can do.
* `ArbiterRun.Accounts` ties a run to the history of its sink, and `accounts_ofActions` says that
  every run keeps it.
-/

namespace ProbeNet

/-! ## Flits with their sources -/

/-- The flits of one source. -/
def ofSource (i : Nat) (xs : List (Nat × Flit)) : List Flit :=
  (xs.filter fun x => x.1 = i).map Prod.snd

@[simp] theorem ofSource_append (i : Nat) (xs ys : List (Nat × Flit)) :
    ofSource i (xs ++ ys) = ofSource i xs ++ ofSource i ys := by
  simp [ofSource]

theorem ofSource_singleton (i j : Nat) (f : Flit) :
    ofSource i [(j, f)] = if j = i then [f] else [] := by
  by_cases h : j = i <;> simp [ofSource, h]

theorem ofSource_map (i j : Nat) (fs : List Flit) :
    ofSource i (fs.map (j, ·)) = if j = i then fs else [] := by
  by_cases h : j = i <;> simp [ofSource, List.filter_map, Function.comp_def, h]

namespace Passage

/-- The flits of some packets, each with the source of its packet. -/
def markedRuns (rs : List (Nat × List Flit)) : List (Nat × Flit) :=
  rs.flatMap fun r => r.2.map (r.1, ·)

/-- The stream that the sink has seen, each flit with its source. -/
def marked (p : Passage) : List (Nat × Flit) :=
  markedRuns p.done ++ p.current.map (p.owner.getD 0, ·)

/-- A flit that goes through is marked with its source. -/
theorem marked_pass {p : Passage} (h : p.Sound) {i : Nat} (f : Flit)
    (howner : p.owner = none ∨ p.owner = some i) : (p.pass i f).marked = p.marked ++ [(i, f)] := by
  have hcurrent : p.current.map (p.owner.getD 0, ·) = p.current.map (i, ·) := by
    rcases howner with hnone | hsome
    · rw [h.owned.mp hnone]
      rfl
    · rw [hsome, Option.getD_some]
  unfold marked pass
  rw [hcurrent]
  split <;> simp [markedRuns]

theorem ofSource_markedRuns (i : Nat) (rs : List (Nat × List Flit)) :
    ofSource i (markedRuns rs) = ((rs.filter fun r => r.1 = i).map Prod.snd).flatten := by
  induction rs with
  | nil => rfl
  | cons r rs ih =>
    rw [markedRuns, List.flatMap_cons, ofSource_append, ofSource_map]
    show _ ++ ofSource i (markedRuns rs) = _
    rw [ih]
    by_cases h : r.1 = i <;> simp [h]

/-- What the sink has seen of one source is its share. -/
theorem ofSource_marked {p : Passage} (h : p.Sound) (i : Nat) :
    ofSource i p.marked = p.share i := by
  rw [marked, ofSource_append, ofSource_markedRuns, ofSource_map, share, runsOf]
  cases howner : p.owner with
  | none => simp [h.owned.mp howner]
  | some j => simp

end Passage

namespace Arbiter

variable {a : Arbiter} {p : Passage} {heads : List (Option Flit)}

/-- Only sources that there are get the sink. -/
theorem Tracks.winner_lt (h : a.Tracks p heads) {i : Nat} (hwinner : a.winner heads = some i) :
    i < heads.length := by
  refine Arbiter.winner_lt (fun j hgranted => ?_) hwinner
  rcases h.shown j hgranted with howner | hshown
  · exact h.within j howner
  · obtain ⟨f, hhead⟩ := Option.isSome_iff_exists.mp hshown
    exact lt_of_headOf hhead

end Arbiter

/-! ## One tick -/

namespace ArbiterBench

variable (b : ArbiterBench)

/-- What the queues show. -/
def heads : List (Option Flit) := b.sources.map List.head?

@[simp] theorem length_heads : b.heads.length = b.sources.length := by
  simp [heads]

/-- What waits in a queue. -/
def queue (i : Nat) : List Flit := b.sources[i]?.getD []

theorem headOf_heads (i : Nat) : Arbiter.headOf b.heads i = (b.queue i).head? := by
  simp only [Arbiter.headOf, heads, queue, List.getElem?_map]
  cases b.sources[i]? <;> rfl

theorem queue_feed (i j : Nat) (fs : List Flit) :
    (b.feed i fs).queue j =
      b.queue j ++ if i = j ∧ i < b.sources.length then fs else [] := by
  simp only [queue, feed, List.getElem?_modify]
  by_cases hij : i = j
  · subst hij
    by_cases hi : i < b.sources.length
    · simp [hi]
    · simp [hi]
  · simp [hij]

theorem isSome_head_of_feed {i j : Nat} {fs : List Flit}
    (h : (Arbiter.headOf b.heads j).isSome = true) :
    (Arbiter.headOf (b.feed i fs).heads j).isSome = true := by
  rw [headOf_heads] at h ⊢
  rw [queue_feed, List.head?_append]
  exact Option.isSome_or.trans (by rw [h, Bool.true_or])

theorem queue_of_moved {b' : ArbiterBench} {i : Nat}
    (h : b'.sources = b.sources.modify i List.tail) (j : Nat) :
    b'.queue j = if i = j then (b.queue j).tail else b.queue j := by
  simp only [queue, h, List.getElem?_modify]
  by_cases hij : i = j
  · cases b.sources[j]? <;> simp [hij]
  · simp [hij]

/-- A tick moves no flit, and gives the sink to nobody but a queue with a flit.  Or it moves the
first flit of a queue that holds the sink or gets it now, and the queue keeps the sink unless its
packet has ended. -/
theorem tick_cases (ready : Bool) :
    ((b.tick ready).2 = none ∧ (b.tick ready).1.sources = b.sources ∧
      ((b.tick ready).1.arbiter = b.arbiter ∨
        ∃ i f, Arbiter.headOf b.heads i = some f ∧
          (b.arbiter.granted = none ∨ b.arbiter.granted = some i) ∧
          (b.tick ready).1.arbiter.granted = some i)) ∨
    ∃ i f, ready = true ∧ Arbiter.headOf b.heads i = some f ∧
      (b.arbiter.granted = none ∨ b.arbiter.granted = some i) ∧ (b.tick ready).2 = some (i, f) ∧
      (b.tick ready).1.sources = b.sources.modify i List.tail ∧
      (b.tick ready).1.arbiter.granted = if f.last then none else some i := by
  unfold tick
  rcases b.arbiter.tick_cases b.heads ready with ⟨hstep, -⟩ | ⟨i, f, hhead, hgranted, hmoved, hnext⟩
  · rw [show b.sources.map List.head? = b.heads from rfl, hstep]
    exact Or.inl ⟨rfl, rfl, Or.inl rfl⟩
  · rw [show b.sources.map List.head? = b.heads from rfl]
    simp only [hmoved]
    cases ready with
    | false => exact Or.inl ⟨rfl, rfl, Or.inr ⟨i, f, hhead, hgranted, by simpa using hnext⟩⟩
    | true => exact Or.inr ⟨i, f, rfl, hhead, hgranted, rfl, rfl, by simpa using hnext⟩

end ArbiterBench

/-! ## Runs -/

/-- What happens around an arbiter between `n` queues and a sink. -/
inductive ArbiterAction (n : Nat) where
  /-- A flit arrives in a queue. -/
  | arrive (i : Fin n) (f : Flit)
  /-- The arbiter takes a step, with a sink that is ready or not. -/
  | tick (ready : Bool)

/-- An arbiter with its queues, the flits that have arrived in them and those that have gone to
the sink, each with its queue. -/
structure ArbiterRun where
  bench : ArbiterBench
  arrived : List (Nat × Flit) := []
  output : List (Nat × Flit) := []

namespace ArbiterRun

variable {n : Nat}

/-- The run after one more action. -/
def act (r : ArbiterRun) : ArbiterAction n → ArbiterRun
  | .arrive i f => { r with bench := r.bench.feed i [f], arrived := r.arrived ++ [(↑i, f)] }
  | .tick ready =>
    { r with
      bench := (r.bench.tick ready).1
      output := r.output ++ (r.bench.tick ready).2.toList }

/-- The run of some actions, from empty queues. -/
def ofActions (actions : List (ArbiterAction n)) : ArbiterRun :=
  actions.foldl act { bench := .ofCount n }

/-- The sink has seen the history `p`, and what has arrived has gone there or waits. -/
structure Accounts (n : Nat) (r : ArbiterRun) (p : Passage) : Prop where
  count : r.bench.sources.length = n
  tracks : r.bench.arbiter.Tracks p r.bench.heads
  output : r.output = p.marked
  arrived : ∀ i < n, ofSource i r.arrived = ofSource i r.output ++ r.bench.queue i

variable {r : ArbiterRun} {p : Passage}

theorem accounts_initial : Accounts n { bench := .ofCount n } {} :=
  ⟨by simp [ArbiterBench.ofCount], Arbiter.tracks_initial _, rfl,
    fun i hi => by simp [ArbiterBench.ofCount, ArbiterBench.queue, ofSource, hi]⟩

theorem Accounts.arrive (a : Accounts n r p) (i : Fin n) (f : Flit) :
    Accounts n (r.act (.arrive i f)) p := by
  refine ⟨?_, a.tracks.mono ?_ fun j hj => r.bench.isSome_head_of_feed hj, a.output,
    fun j hj => ?_⟩
  · simp [act, ArbiterBench.feed, a.count]
  · simp [act, ArbiterBench.feed]
  · show ofSource j (r.arrived ++ [(i.val, f)]) =
      ofSource j r.output ++ (r.bench.feed i [f]).queue j
    rw [ofSource_append, a.arrived j hj, ofSource_singleton, ArbiterBench.queue_feed, a.count,
      List.append_assoc]
    simp [i.isLt]

theorem Accounts.tick (a : Accounts n r p) (ready : Bool) :
    ∃ p', Accounts n (r.act (.tick ready : ArbiterAction n)) p' := by
  rcases r.bench.tick_cases ready with
    ⟨hmoved, hsources, harbiter⟩ | ⟨i, f, rfl, hhead, hgranted, hmoved, hsources, hnext⟩
  · have hheads : (r.bench.tick ready).1.heads = r.bench.heads := by
      rw [ArbiterBench.heads, hsources]
      rfl
    refine ⟨p, ?_, ?_, ?_, fun i hi => ?_⟩
    · rw [act, hsources, a.count]
    · rw [act, hheads]
      rcases harbiter with hsame | ⟨i, f, hhead, hgranted, hnext⟩
      · rw [hsame]
        exact a.tracks
      · exact a.tracks.hold hhead hgranted hnext
    · rw [act, hmoved, a.output]
      exact List.append_nil _
    · rw [act, hmoved, a.arrived i hi, ArbiterBench.queue, ArbiterBench.queue, hsources]
      simp
  · have hqueue := r.bench.queue_of_moved hsources
    refine ⟨p.pass i f, ?_, ?_, ?_, fun j hj => ?_⟩
    · rw [act, hsources, List.length_modify, a.count]
    · refine a.tracks.pass hhead hnext ?_
      rw [ArbiterBench.length_heads, ArbiterBench.length_heads, act, hsources, List.length_modify]
    · rw [act, hmoved, a.output,
        Passage.marked_pass a.tracks.sound f (a.tracks.owner_of_granted hgranted)]
      rfl
    · rw [act, hmoved, hqueue, a.arrived j hj, Option.toList_some, ofSource_append,
        ofSource_singleton, List.append_assoc]
      by_cases hij : i = j
      · subst hij
        rw [ArbiterBench.headOf_heads] at hhead
        rw [List.eq_cons_of_mem_head? (Option.mem_def.mpr hhead)]
        simp
      · simp [hij]

theorem exists_accounts (actions : List (ArbiterAction n)) :
    ∃ p, Accounts n (ofActions actions) p := by
  unfold ofActions
  induction actions using List.reverseRecOn with
  | nil => exact ⟨{}, accounts_initial⟩
  | append_singleton actions action ih =>
    obtain ⟨p, a⟩ := ih
    rw [List.foldl_append]
    cases action with
    | arrive i f => exact ⟨p, a.arrive i f⟩
    | tick ready => exact a.tick ready

/-- A tick moves the first flit of one queue to the sink, or no flit at all. -/
theorem act_tick_cases (r : ArbiterRun) (ready : Bool) :
    let next := r.act (.tick ready : ArbiterAction n)
    ((r.bench.tick ready).2 = none ∧ next.bench.sources = r.bench.sources ∧
      next.output = r.output) ∨
    ∃ i f, i < r.bench.sources.length ∧ ready = true ∧ (r.bench.tick ready).2 = some (i, f) ∧
      next.output = r.output ++ [(i, f)] ∧ r.bench.queue i = f :: next.bench.queue i ∧
      ∀ j, j ≠ i → next.bench.queue j = r.bench.queue j := by
  intro next
  rcases r.bench.tick_cases ready with
    ⟨hmoved, hsources, -⟩ | ⟨i, f, hready, hhead, -, hmoved, hsources, -⟩
  · refine Or.inl ⟨hmoved, hsources, ?_⟩
    show r.output ++ (r.bench.tick ready).2.toList = r.output
    rw [hmoved]
    exact List.append_nil _
  · have hqueue := r.bench.queue_of_moved hsources
    refine Or.inr ⟨i, f, ?_, hready, hmoved, ?_, ?_, fun j hj => ?_⟩
    · rw [← ArbiterBench.length_heads]
      exact Arbiter.lt_of_headOf hhead
    · show r.output ++ (r.bench.tick ready).2.toList = _
      rw [hmoved]
      rfl
    · rw [ArbiterBench.headOf_heads] at hhead
      show _ = f :: (r.bench.tick ready).1.queue i
      rw [hqueue, if_pos rfl]
      exact List.eq_cons_of_mem_head? (Option.mem_def.mpr hhead)
    · show (r.bench.tick ready).1.queue j = _
      rw [hqueue, if_neg (Ne.symm hj)]

end ArbiterRun

/-- Take an arbiter between any number of queues and a sink, flits that arrive in the queues when
they like, and any ticks with a sink that is ready when it likes.

The sink has seen whole packets, one after the other and each from one queue, and behind them at
most the beginning of one more, from the queue that holds the sink.  The packets from a queue are
the first ones that have arrived there.  What has arrived in a queue has gone to the sink or waits,
in order.  Only queues that there are get the sink.  And a tick moves nothing, or one flit: the first
one of the queue that it names goes to the sink, which is ready, and no other queue changes. -/
theorem arbiter_keeps_packets_whole {n : Nat} (actions : List (ArbiterAction n)) :
    let r := ArbiterRun.ofActions actions
    (∃ (packets : List (Nat × List Flit)) (owner : Nat) (part : List Flit),
      r.output = packets.flatMap (fun p => p.2.map (p.1, ·)) ++ part.map (owner, ·) ∧
      (∀ p ∈ packets, p.1 < n ∧ Flit.IsRun p.2) ∧
      (∀ i < n, (packets.filter fun p => p.1 = i).map Prod.snd <+:
        Flit.runs (ofSource i r.arrived)) ∧
      (∀ f ∈ part, f.last = false) ∧
      (part ≠ [] → r.bench.arbiter.granted = some owner)) ∧
    (∀ i < n, ofSource i r.arrived = ofSource i r.output ++ r.bench.queue i) ∧
    (∀ i, r.bench.arbiter.winner r.bench.heads = some i → i < n) ∧
    ∀ ready,
      let next := r.act (.tick ready : ArbiterAction n)
      ((r.bench.tick ready).2 = none ∧ next.bench.sources = r.bench.sources ∧
        next.output = r.output) ∨
      ∃ i f, i < n ∧ ready = true ∧ (r.bench.tick ready).2 = some (i, f) ∧
        next.output = r.output ++ [(i, f)] ∧ r.bench.queue i = f :: next.bench.queue i ∧
        ∀ j, j ≠ i → next.bench.queue j = r.bench.queue j := by
  intro r
  obtain ⟨p, a⟩ := ArbiterRun.exists_accounts actions
  have hcount : r.bench.heads.length = n := r.bench.length_heads.trans a.count
  refine ⟨⟨p.done, p.owner.getD 0, p.current, a.output, fun x hx => ⟨?_, a.tracks.sound.runs x hx⟩,
    fun i hi => ?_, a.tracks.sound.unmarked, fun hpart => ?_⟩, a.arrived, fun i hwinner => ?_,
    fun ready => ?_⟩
  · rw [← hcount]
    exact a.tracks.sources x hx
  · show p.runsOf i <+: _
    rw [← a.tracks.sound.runs_share i, ← Passage.ofSource_marked a.tracks.sound i, ← a.output]
    refine Flit.runs_prefix ?_
    rw [a.arrived i hi]
    exact List.prefix_append _ _
  · obtain ⟨i, howner⟩ : ∃ i, p.owner = some i := by
      refine Option.ne_none_iff_exists'.mp fun hnone => hpart (a.tracks.sound.owned.mp hnone)
    rw [howner, Option.getD_some]
    exact a.tracks.kept i howner
  · rw [← hcount]
    exact a.tracks.winner_lt hwinner
  · rw [← a.count]
    exact r.act_tick_cases ready

end ProbeNet
