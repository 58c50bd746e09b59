import Mathlib.Algebra.GroupWithZero.Nat
import ProbeNet.Proofs.Stream.Merging

/-!
# Interleavings of packets

Behind an arbiter the packets of its sources are interleaved.  `Interleaves` is the relation
between two sequences and the sequence that is made of them, and what has gone through an arbiter
of two levels, up to any flit, is put together from it.

* `Interleaves.exists_of_prefix`: the beginning of an interleaving is one of two beginnings.
* `Packet.stream_cases`: the beginning of a stream of packets is some packets of it and a part of
  the next one.
* `Passage.Sound.length_runs_whole`: the packets that have gone through, counted by source.
* `Passage.Sound.exists_packets`: when each source sends packets, what has gone through is the
  beginning of a stream of packets, and those of each source are the first ones that it sends.
-/

namespace ProbeNet

/-! ## The relation -/

/-- The third sequence is made of the other two, each in its own order. -/
inductive Interleaves {α : Type} : List α → List α → List α → Prop where
  | nil : Interleaves [] [] []
  | left (x : α) {xs ys zs : List α} (h : Interleaves xs ys zs) :
      Interleaves (x :: xs) ys (x :: zs)
  | right (y : α) {xs ys zs : List α} (h : Interleaves xs ys zs) :
      Interleaves xs (y :: ys) (y :: zs)

namespace Interleaves

variable {α β : Type} {xs ys zs : List α}

/-- A sequence is made of the elements that have a property and of those that do not. -/
theorem of_filter (p : α → Bool) (zs : List α) :
    Interleaves (zs.filter p) (zs.filter fun z => !p z) zs := by
  induction zs with
  | nil => exact nil
  | cons z zs ih =>
    cases hz : p z with
    | true => simpa [hz] using left z ih
    | false => simpa [hz] using right z ih

theorem map (f : α → β) (h : Interleaves xs ys zs) :
    Interleaves (xs.map f) (ys.map f) (zs.map f) := by
  induction h with
  | nil => exact nil
  | left x _ ih => exact left (f x) ih
  | right y _ ih => exact right (f y) ih

theorem perm (h : Interleaves xs ys zs) : zs.Perm (xs ++ ys) := by
  induction h with
  | nil => exact List.Perm.refl []
  | left x _ ih => exact List.Perm.cons x ih
  | right y _ ih => exact (List.Perm.cons y ih).trans List.perm_middle.symm

/-- The beginning of an interleaving is made of two beginnings. -/
theorem exists_of_prefix (h : Interleaves xs ys zs) {zs' : List α} (hzs : zs' <+: zs) :
    ∃ xs' ys', xs' <+: xs ∧ ys' <+: ys ∧ Interleaves xs' ys' zs' := by
  induction h generalizing zs' with
  | nil =>
    rw [List.prefix_nil.mp hzs]
    exact ⟨[], [], List.prefix_rfl, List.prefix_rfl, nil⟩
  | @left x xs ys zs _ ih =>
    cases zs' with
    | nil => exact ⟨[], [], List.nil_prefix, List.nil_prefix, nil⟩
    | cons z zs' =>
      obtain ⟨rfl, hrest⟩ := List.cons_prefix_cons.mp hzs
      obtain ⟨xs', ys', hxs, hys, hmade⟩ := ih hrest
      exact ⟨z :: xs', ys', List.cons_prefix_cons.mpr ⟨rfl, hxs⟩, hys, left z hmade⟩
  | @right y xs ys zs _ ih =>
    cases zs' with
    | nil => exact ⟨[], [], List.nil_prefix, List.nil_prefix, nil⟩
    | cons z zs' =>
      obtain ⟨rfl, hrest⟩ := List.cons_prefix_cons.mp hzs
      obtain ⟨xs', ys', hxs, hys, hmade⟩ := ih hrest
      exact ⟨xs', z :: ys', hxs, List.cons_prefix_cons.mpr ⟨rfl, hys⟩, right z hmade⟩

/-- An interleaving begins with the first element of one of the two. -/
theorem cons_cons_iff {x y : α} :
    Interleaves (x :: xs) (y :: ys) zs ↔
      (∃ rest, Interleaves xs (y :: ys) rest ∧ zs = x :: rest) ∨
        ∃ rest, Interleaves (x :: xs) ys rest ∧ zs = y :: rest := by
  constructor
  · intro h
    cases h with
    | left _ h => exact Or.inl ⟨_, h, rfl⟩
    | right _ h => exact Or.inr ⟨_, h, rfl⟩
  · rintro (⟨rest, h, rfl⟩ | ⟨rest, h, rfl⟩)
    · exact left x h
    · exact right y h

theorem nil_left_iff : Interleaves [] ys zs ↔ zs = ys := by
  constructor
  · intro h
    induction ys generalizing zs with
    | nil =>
      cases h
      rfl
    | cons y ys ih =>
      cases h with
      | right _ h => rw [ih h]
  · rintro rfl
    induction zs with
    | nil => exact nil
    | cons z zs ih => exact right z ih

theorem nil_right_iff : Interleaves xs [] zs ↔ zs = xs := by
  constructor
  · intro h
    induction xs generalizing zs with
    | nil =>
      cases h
      rfl
    | cons x xs ih =>
      cases h with
      | left _ h => rw [ih h]
  · rintro rfl
    induction zs with
    | nil => exact nil
    | cons z zs ih => exact left z ih

end Interleaves

/-! ## The beginning of a stream of packets -/

/-- What begins a run and does not end it has no flit that is marked last. -/
theorem Flit.IsRun.unmarked_of_begins {r fs : List Flit} (h : IsRun r) (hfs : fs <+: r)
    (hne : fs ≠ r) : ∀ f ∈ fs, f.last = false := by
  obtain ⟨xs, g, rfl, -, hxs⟩ := isRun_iff.mp h
  rcases List.prefix_concat_iff.mp hfs with heq | hbegins
  · exact absurd heq hne
  · intro f hf
    exact hxs f (hbegins.subset hf)

namespace Packet

/-- The beginning of a stream of packets is some of them and a part of the next one. -/
theorem stream_cases {ps : List Packet} {fs : List Flit} (h : fs <+: stream ps) :
    ofStream fs <+: ps ∧ fs = stream (ofStream fs) ++ Flit.openRun fs ∧
      (Flit.openRun fs = [] ∨ ∃ next, ofStream fs ++ [next] <+: ps ∧
        Flit.openRun fs <+: next.toFlits ∧ Flit.openRun fs ≠ next.toFlits) := by
  induction ps generalizing fs with
  | nil =>
    obtain rfl : fs = [] := List.prefix_nil.mp h
    exact ⟨List.prefix_rfl, rfl, Or.inl rfl⟩
  | cons p ps ih =>
    have hstream : stream (p :: ps) = p.toFlits ++ stream ps := rfl
    rw [hstream] at h
    by_cases hwhole : p.toFlits <+: fs
    · obtain ⟨rest, rfl⟩ := hwhole
      obtain ⟨hread, hflits, hopen⟩ := ih ((List.prefix_append_right_inj _).mp h)
      have hrun := isRun_toFlits p
      have hfirst : ofStream (p.toFlits ++ rest) = p :: ofStream rest := by
        rw [ofStream, hrun.runs_append, List.filterMap_cons, ofFlits_toFlits]
        rfl
      rw [hfirst, hrun.openRun_append]
      refine ⟨List.cons_prefix_cons.mpr ⟨rfl, hread⟩, ?_, hopen.imp_right ?_⟩
      · show p.toFlits ++ rest = (p.toFlits ++ stream (ofStream rest)) ++ Flit.openRun rest
        rw [List.append_assoc, ← hflits]
      · rintro ⟨next, hnext, hpart⟩
        exact ⟨next, List.cons_prefix_cons.mpr ⟨rfl, hnext⟩, hpart⟩
    · have hpart : fs <+: p.toFlits :=
        (List.prefix_or_prefix_of_prefix h (List.prefix_append _ _)).resolve_right hwhole
      have hne : fs ≠ p.toFlits := by
        rintro rfl
        exact hwhole List.prefix_rfl
      have hunmarked := (isRun_toFlits p).unmarked_of_begins hpart hne
      have hnone : ofStream fs = [] := by
        rw [ofStream, Flit.runs_of_unmarked hunmarked]
        rfl
      rw [hnone, Flit.openRun_of_unmarked hunmarked]
      exact ⟨List.nil_prefix, rfl, Or.inr ⟨p, List.cons_prefix_cons.mpr ⟨rfl, List.nil_prefix⟩,
        hpart, hne⟩⟩

end Packet

/-! ## What has gone through an arbiter -/

/-- A sum that grows in one place. -/
theorem sum_range_add (count : Nat) (g : Nat → Nat) (i k : Nat) :
    ((List.range count).map fun j => g j + if i = j then k else 0).sum =
      ((List.range count).map g).sum + if i < count then k else 0 := by
  induction count with
  | zero => rfl
  | succ count ih =>
    simp only [List.range_succ, List.map_append, List.sum_append, ih, List.map_singleton,
      List.sum_singleton]
    split_ifs <;> omega

namespace Passage

variable {p : Passage}

/-- The packets that are through, each with its source. -/
def packets (p : Passage) : List (Nat × Packet) :=
  p.done.filterMap fun r => (Packet.ofFlits r.2).toOption.map fun q => (r.1, q)

/-- The packets of one source that are through are those of its share. -/
theorem Sound.packets_of (h : p.Sound) (i : Nat) :
    (p.packets.filter fun x => x.1 = i).map Prod.snd = Packet.ofStream (p.share i) := by
  rw [Packet.ofStream, h.runs_share, runsOf, packets]
  induction p.done with
  | nil => rfl
  | cons r rs ih =>
    cases hr : Packet.ofFlits r.2 with
    | error e => by_cases hi : r.1 = i <;> simpa [hr, hi, Except.toOption] using ih
    | ok q => by_cases hi : r.1 = i <;> simpa [hr, hi, Except.toOption] using ih

/-- Each packet that is through came from one of the sources. -/
theorem Sound.length_runs_whole (h : p.Sound) {count : Nat} (hsources : ∀ r ∈ p.done, r.1 < count) :
    (Flit.runs p.whole).length =
      ((List.range count).map fun i => (Flit.runs (p.share i)).length).sum := by
  simp only [h.runs_whole, h.runs_share, runsOf, List.length_map]
  generalize p.done = rs at hsources
  induction rs with
  | nil => simp
  | cons r rs ih =>
    have hrest := ih fun r' hr' => hsources r' (List.mem_cons_of_mem r hr')
    have hcount : ∀ i, ((r :: rs).filter fun x => x.1 = i).length =
        (rs.filter fun x => x.1 = i).length + if r.1 = i then 1 else 0 := by
      intro i
      by_cases hi : r.1 = i <;> simp [hi]
    simp only [hcount]
    rw [sum_range_add, if_pos (hsources r List.mem_cons_self), ← hrest, List.length_cons]

/-- When every source sends packets, the packets that are through are all that went through,
but for the one under way. -/
theorem Sound.whole_eq (h : p.Sound) {ps : Nat → List Packet}
    (hshare : ∀ i, p.share i <+: Packet.stream (ps i)) :
    p.whole = Packet.stream (p.packets.map Prod.snd) ++ p.current := by
  have hall : ∀ r ∈ p.done, ∃ q, Packet.ofFlits r.2 = .ok q ∧ q.toFlits = r.2 := by
    intro r hr
    have hmem : r.2 ∈ p.runsOf r.1 :=
      List.mem_map.mpr ⟨r, List.mem_filter.mpr ⟨hr, by simp⟩, rfl⟩
    rw [← h.runs_share] at hmem
    obtain ⟨q, -, hq⟩ := Packet.exists_of_mem_runs (hshare r.1) hmem
    exact ⟨q, hq⟩
  have hdone : (p.done.map Prod.snd).flatten = Packet.stream (p.packets.map Prod.snd) := by
    rw [packets]
    generalize p.done = rs at hall
    induction rs with
    | nil => rfl
    | cons r rs ih =>
      obtain ⟨q, hq, hr⟩ := hall r List.mem_cons_self
      rw [List.map_cons, List.flatten_cons, ih fun r' hr' => hall r' (List.mem_cons_of_mem r hr'),
        List.filterMap_cons, hq, ← hr]
      rfl
  rw [whole, hdone]

/-- No packet is under way when every source has sent whole packets. -/
theorem Sound.owner_eq_none (h : p.Sound) {ps : Nat → List Packet}
    (hshare : ∀ i, p.share i = Packet.stream (ps i)) : p.owner = none := by
  cases howner : p.owner with
  | none => rfl
  | some i =>
    refine absurd ?_ (h.openRun_share_ne_nil howner)
    rw [hshare i, Packet.openRun_stream]

/-- When every source sends packets, what has gone through is the beginning of a stream of
packets, of which each source has sent the first ones of its own.  It is the whole stream, with
all packets, when the sources have sent them all. -/
theorem Sound.exists_packets (h : p.Sound) {ps : Nat → List Packet}
    (hshare : ∀ i, p.share i <+: Packet.stream (ps i)) :
    ∃ all : List (Nat × Packet), p.whole <+: Packet.stream (all.map Prod.snd) ∧
      (∀ i, (all.filter fun x => x.1 = i).map Prod.snd <+: ps i) ∧
      ((∀ i, p.share i = Packet.stream (ps i)) → p.whole = Packet.stream (all.map Prod.snd) ∧
        ∀ i, (all.filter fun x => x.1 = i).map Prod.snd = ps i) := by
  have hwhole := h.whole_eq hshare
  have hread : ∀ i, Packet.ofStream (p.share i) <+: ps i := fun i =>
    (Packet.stream_cases (hshare i)).1
  cases howner : p.owner with
  | none =>
    have hnothing := h.owned.mp howner
    rw [hnothing, List.append_nil] at hwhole
    refine ⟨p.packets, hwhole ▸ List.prefix_rfl, fun i => ?_, fun hsent => ⟨hwhole, fun i => ?_⟩⟩
    · rw [h.packets_of]
      exact hread i
    · rw [h.packets_of, hsent i, Packet.ofStream_stream]
  | some i =>
    -- The packet under way is the next one that its source has to send.
    have hopen := h.openRun_share i
    rw [if_pos howner] at hopen
    obtain ⟨-, -, hnone | ⟨next, hnext, hpart, -⟩⟩ := Packet.stream_cases (hshare i)
    · exact absurd hnone (h.openRun_share_ne_nil howner)
    · refine ⟨p.packets ++ [(i, next)], ?_, fun j => ?_, fun hsent => ?_⟩
      · rw [hwhole, List.map_append, Packet.stream_append, ← hopen]
        refine (List.prefix_append_right_inj _).mpr (hpart.trans ?_)
        simp
      · rw [List.filter_append, List.map_append, h.packets_of]
        by_cases hij : i = j
        · subst hij
          simpa using hnext
        · simpa [hij] using hread j
      · rw [h.owner_eq_none hsent] at howner
        cases howner

end Passage

end ProbeNet
