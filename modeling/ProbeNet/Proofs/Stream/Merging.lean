import Mathlib.Data.List.Basic
import ProbeNet.Flow.Arbiter
import ProbeNet.Proofs.Stream.Framing

/-!
# What an arbiter lets through

An arbiter never mixes packets.  A `Passage` is the history of its sink: the
packets that went through, each with the source that it came from, and the
packet that is going through.

* `Passage.whole` is the stream that the sink has seen, `Passage.share` the
  part of it that one source has sent.  `runs_whole` and `runs_share` say that
  both are made of the same packets in the same order.
* `Arbiter.Tracks` ties an arbiter to its history: the source of the packet
  under way holds the sink, and a source that holds the sink without such a
  packet shows a flit.
* `Arbiter.Tracks.tick` carries this over one step.
-/

namespace ProbeNet

/-- The packets that have gone through a sink that several sources share. -/
structure Passage where
  /-- The packets that are through, each with its source. -/
  done : List (Nat × List Flit) := []
  /-- The source of the packet that is going through. -/
  owner : Option Nat := none
  /-- What has gone through of that packet. -/
  current : List Flit := []

namespace Passage

/-- The stream that the sink has seen. -/
def whole (p : Passage) : List Flit := (p.done.map Prod.snd).flatten ++ p.current

/-- The packets of one source that are through. -/
def runsOf (p : Passage) (i : Nat) : List (List Flit) :=
  (p.done.filter fun r => r.1 = i).map Prod.snd

/-- What one source has sent. -/
def share (p : Passage) (i : Nat) : List Flit :=
  (p.runsOf i).flatten ++ if p.owner = some i then p.current else []

/-- The passage after a flit of source `i` went through. -/
def pass (p : Passage) (i : Nat) (f : Flit) : Passage :=
  if f.last then { done := p.done ++ [(i, p.current ++ [f])] }
  else { p with owner := some i, current := p.current ++ [f] }

/-- The packets are whole runs, and the one under way has a source. -/
structure Sound (p : Passage) : Prop where
  runs : ∀ r ∈ p.done, Flit.IsRun r.2
  unmarked : ∀ f ∈ p.current, f.last = false
  owned : p.owner = none ↔ p.current = []

theorem Sound.initial : Sound {} := ⟨by simp, by simp, by simp⟩

theorem Sound.pass {p : Passage} (h : p.Sound) (i : Nat) (f : Flit) : (p.pass i f).Sound := by
  unfold Passage.pass
  split
  · rename_i hf
    refine ⟨fun r hr => ?_, by simp, by simp⟩
    rcases List.mem_append.mp hr with hr | hr
    · exact h.runs r hr
    · rw [List.mem_singleton.mp hr]
      exact Flit.isRun_snoc h.unmarked hf
  · rename_i hf
    refine ⟨h.runs, fun g hg => ?_, by simp⟩
    rcases List.mem_append.mp hg with hg | hg
    · exact h.unmarked g hg
    · rw [List.mem_singleton.mp hg]
      simpa using hf

@[simp] theorem whole_pass (p : Passage) (i : Nat) (f : Flit) :
    (p.pass i f).whole = p.whole ++ [f] := by
  unfold pass whole
  split <;> simp

/-- A flit that goes through is one of its source's. -/
theorem share_pass_self {p : Passage} (h : p.Sound) {i : Nat} (f : Flit)
    (howner : p.owner = none ∨ p.owner = some i) : (p.pass i f).share i = p.share i ++ [f] := by
  have hcurrent : (if p.owner = some i then p.current else []) = p.current := by
    rcases howner with hnone | hsome
    · simp [h.owned.mp hnone]
    · simp [hsome]
  unfold share pass runsOf
  rw [hcurrent]
  split <;> simp

/-- It is nobody else's. -/
theorem share_pass_of_ne {p : Passage} {i j : Nat} (f : Flit)
    (howner : p.owner = none ∨ p.owner = some i) (hne : i ≠ j) :
    (p.pass i f).share j = p.share j := by
  have hnot : p.owner ≠ some j := by
    rcases howner with hnone | hsome
    · simp [hnone]
    · simpa [hsome] using hne
  unfold share pass runsOf
  rw [if_neg hnot]
  split <;> simp [hne]

section Runs

variable {p : Passage}

/-- The packets of the stream are those that went through. -/
theorem Sound.runs_whole (h : p.Sound) : Flit.runs p.whole = p.done.map Prod.snd := by
  have hruns : ∀ r ∈ p.done.map Prod.snd, Flit.IsRun r := by
    intro r hr
    obtain ⟨x, hx, rfl⟩ := List.mem_map.mp hr
    exact h.runs x hx
  rw [whole, Flit.runs_flatten_append hruns, Flit.runs_of_unmarked h.unmarked, List.append_nil]

theorem Sound.isRun_of_mem_runsOf (h : p.Sound) {i : Nat} {r : List Flit}
    (hr : r ∈ p.runsOf i) : Flit.IsRun r := by
  obtain ⟨x, hx, rfl⟩ := List.mem_map.mp hr
  exact h.runs x (List.mem_filter.mp hx).1

theorem Sound.unmarked_rest (h : p.Sound) (i : Nat) :
    ∀ f ∈ if p.owner = some i then p.current else [], f.last = false := by
  split
  · exact h.unmarked
  · simp

/-- The packets that one source has sent are those that went through from it. -/
theorem Sound.runs_share (h : p.Sound) (i : Nat) : Flit.runs (p.share i) = p.runsOf i := by
  rw [share, Flit.runs_flatten_append fun r hr => h.isRun_of_mem_runsOf hr,
    Flit.runs_of_unmarked (h.unmarked_rest i), List.append_nil]

/-- A source has begun a packet and not ended it when that is the one under way. -/
theorem Sound.openRun_share (h : p.Sound) (i : Nat) :
    Flit.openRun (p.share i) = if p.owner = some i then p.current else [] := by
  rw [share, Flit.openRun_flatten_append fun r hr => h.isRun_of_mem_runsOf hr,
    Flit.openRun_of_unmarked (h.unmarked_rest i)]

/-- What only counts for the packets of one source is found in its share. -/
theorem Sound.filterMap_whole {α : Type} (h : p.Sound) (g : List Flit → Option α) (i : Nat)
    (hothers : ∀ j, j ≠ i → ∀ r ∈ p.runsOf j, g r = none) :
    (Flit.runs p.whole).filterMap g = (Flit.runs (p.share i)).filterMap g := by
  have hnone : ∀ r ∈ p.done, r.1 ≠ i → g r.2 = none := fun r hr hne =>
    hothers r.1 hne r.2 (List.mem_map.mpr ⟨r, List.mem_filter.mpr ⟨hr, by simp⟩, rfl⟩)
  rw [h.runs_whole, h.runs_share, Passage.runsOf, List.filterMap_map, List.filterMap_map,
    List.filterMap_filter]
  refine List.filterMap_congr fun r hr => ?_
  by_cases hi : r.1 = i
  · simp [hi]
  · simp [hi, hnone r hr hi]

/-- The same of the packets that are read from the stream. -/
theorem Sound.filter_whole (h : p.Sound) (K : Packet → Bool) (i : Nat)
    (hothers : ∀ j, j ≠ i → ∀ r ∈ p.runsOf j, ∀ q, Packet.ofFlits r = .ok q → K q = false) :
    (Packet.ofStream p.whole).filter K = (Packet.ofStream (p.share i)).filter K := by
  rw [Packet.ofStream, Packet.ofStream, List.filter_filterMap, List.filter_filterMap]
  refine h.filterMap_whole _ i fun j hj r hr => ?_
  cases hq : Packet.ofFlits r with
  | error e => rfl
  | ok q => simp [Except.toOption, Option.filter, hothers j hj r hr q hq]

/-- Every packet that went through was sent by one of the sources. -/
theorem Sound.exists_share (h : p.Sound) {q : Packet} (hq : q ∈ Packet.ofStream p.whole) :
    ∃ i, q ∈ Packet.ofStream (p.share i) := by
  rw [Packet.ofStream, h.runs_whole] at hq
  obtain ⟨r, hr, hread⟩ := List.mem_filterMap.mp hq
  obtain ⟨x, hx, rfl⟩ := List.mem_map.mp hr
  refine ⟨x.1, ?_⟩
  rw [Packet.ofStream, h.runs_share]
  have hown : x.2 ∈ p.runsOf x.1 :=
    List.mem_map.mpr ⟨x, List.mem_filter.mpr ⟨hx, by simp⟩, rfl⟩
  exact List.mem_filterMap.mpr ⟨x.2, hown, hread⟩

/-- A source that sends packets has its own packets go through. -/
theorem Sound.exists_packet (h : p.Sound) {i : Nat} {ps : List Packet}
    (hshare : p.share i <+: Packet.stream ps) {r : List Flit} (hr : r ∈ p.runsOf i) :
    ∃ q ∈ ps, Packet.ofFlits r = .ok q := by
  rw [← h.runs_share] at hr
  obtain ⟨q, hq, hflits, -⟩ := Packet.exists_of_mem_runs hshare hr
  exact ⟨q, hq, hflits⟩

theorem Sound.openRun_share_ne_nil (h : p.Sound) {i : Nat} (howner : p.owner = some i) :
    Flit.openRun (p.share i) ≠ [] := by
  rw [h.openRun_share, if_pos howner]
  intro hnil
  rw [h.owned.mpr hnil] at howner
  cases howner

end Runs

end Passage

/-! ## Arbiters -/

namespace Arbiter

/-- A search looks at every source. -/
theorem mem_searchOrder {a : Arbiter} {n i : Nat} (h : i < n) : i ∈ a.searchOrder n := by
  refine List.mem_map.mpr ⟨(i + (n - a.next % n)) % n, ?_, ?_⟩
  · exact List.mem_range.mpr (Nat.mod_lt _ (by omega))
  · have hnext := Nat.div_add_mod a.next n
    have hlt := Nat.mod_lt a.next (by omega : n > 0)
    have hsum : a.next + (i + (n - a.next % n)) = i + n * (a.next / n + 1) := by
      rw [Nat.mul_add, Nat.mul_one]
      omega
    rw [Nat.add_mod_mod, hsum, Nat.add_mul_mod_self_left, Nat.mod_eq_of_lt h]

/-- Only sources that there are get the sink, when only these hold it. -/
theorem winner_lt {a : Arbiter} {heads : List (Option Flit)} {i : Nat}
    (hgranted : ∀ j, a.granted = some j → j < heads.length)
    (hwinner : a.winner heads = some i) : i < heads.length := by
  unfold winner at hwinner
  split at hwinner
  · rename_i j hj
    exact Option.some.inj hwinner ▸ hgranted j hj
  · obtain ⟨k, hk, rfl⟩ := List.mem_map.mp (List.mem_of_find?_eq_some hwinner)
    exact Nat.mod_lt _ (Nat.zero_lt_of_lt (List.mem_range.mp hk))

theorem headOf_eq_none_of_le {heads : List (Option Flit)} {i : Nat} (h : heads.length ≤ i) :
    headOf heads i = none := by
  simp [headOf, List.getElem?_eq_none h]

/-- The step of an arbiter that gives the sink to a source. -/
theorem tick_of_winner {a : Arbiter} {heads : List (Option Flit)} {i : Nat} {f : Flit}
    (ready : Bool) (hwinner : a.winner heads = some i) (hhead : headOf heads i = some f) :
    (a.tick heads ready).2 = some (i, f) ∧
      (a.tick heads ready).1.granted = if ready && f.last then none else some i := by
  simp only [tick, hwinner, hhead]
  split <;> exact ⟨rfl, rfl⟩

/-- An arbiter does nothing when no source shows a flit that it could take.
Otherwise it presents a flit of a source that holds the sink or gets it now,
and the source keeps the sink unless its packet has ended. -/
theorem tick_cases (a : Arbiter) (heads : List (Option Flit)) (ready : Bool) :
    (a.tick heads ready = (a, none) ∧
      ∀ i, a.granted = none ∨ a.granted = some i → headOf heads i = none) ∨
    ∃ i f, headOf heads i = some f ∧ (a.granted = none ∨ a.granted = some i) ∧
      (a.tick heads ready).2 = some (i, f) ∧
      (a.tick heads ready).1.granted = if ready && f.last then none else some i := by
  cases hgranted : a.granted with
  | some i =>
    have hwinner : a.winner heads = some i := by simp [winner, hgranted]
    cases hhead : headOf heads i with
    | none =>
      refine Or.inl ⟨?_, ?_⟩
      · simp only [tick, hwinner, hhead]
        rw [← hgranted]
      · rintro j (hnone | hsome)
        · cases hnone
        · rw [← Option.some.inj hsome]
          exact hhead
    | some f => exact Or.inr ⟨i, f, hhead, Or.inr rfl, tick_of_winner ready hwinner hhead⟩
  | none =>
    cases hwinner : a.winner heads with
    | none =>
      refine Or.inl ⟨by simp only [tick, hwinner], fun i _ => ?_⟩
      rw [winner, hgranted, List.find?_eq_none] at hwinner
      by_cases hi : i < heads.length
      · simpa using hwinner i (mem_searchOrder hi)
      · exact headOf_eq_none_of_le (Nat.not_lt.mp hi)
    | some i =>
      have hshown : (headOf heads i).isSome = true := by
        rw [winner, hgranted] at hwinner
        simpa using List.find?_some hwinner
      obtain ⟨f, hhead⟩ := Option.isSome_iff_exists.mp hshown
      exact Or.inr ⟨i, f, hhead, Or.inl rfl, tick_of_winner ready hwinner hhead⟩

/-- An arbiter knows who is sending the packet under way, and it has let nobody
else have the sink who shows no flit. -/
structure Tracks (a : Arbiter) (p : Passage) (heads : List (Option Flit)) : Prop where
  sound : p.Sound
  sources : ∀ r ∈ p.done, r.1 < heads.length
  within : ∀ i, p.owner = some i → i < heads.length
  kept : ∀ i, p.owner = some i → a.granted = some i
  shown : ∀ i, a.granted = some i → p.owner = some i ∨ (headOf heads i).isSome = true

theorem tracks_initial (heads : List (Option Flit)) : Tracks {} {} heads :=
  ⟨.initial, by simp, by simp, by simp, by simp⟩

variable {a : Arbiter} {p : Passage} {heads heads' : List (Option Flit)}

/-- Every packet that went through has one of the sources. -/
theorem Tracks.lt_of_mem_runsOf (h : a.Tracks p heads) {i : Nat} {r : List Flit}
    (hr : r ∈ p.runsOf i) : i < heads.length := by
  obtain ⟨x, hx, rfl⟩ := List.mem_map.mp hr
  obtain ⟨hdone, hsource⟩ := List.mem_filter.mp hx
  have hi : x.1 = i := by simpa using hsource
  rw [← hi]
  exact h.sources x hdone

/-- Nothing went through from anywhere else. -/
theorem Tracks.share_of_le (h : a.Tracks p heads) {i : Nat} (hi : heads.length ≤ i) :
    p.share i = [] := by
  have hruns : p.runsOf i = [] := by
    refine List.eq_nil_iff_forall_not_mem.mpr fun r hr => ?_
    exact absurd (h.lt_of_mem_runsOf hr) (Nat.not_lt.mpr hi)
  have howner : p.owner ≠ some i := fun howner => absurd (h.within i howner) (Nat.not_lt.mpr hi)
  rw [Passage.share, hruns, if_neg howner]
  rfl

theorem Tracks.owner_of_granted (h : a.Tracks p heads) {i : Nat}
    (hgranted : a.granted = none ∨ a.granted = some i) : p.owner = none ∨ p.owner = some i := by
  cases howner : p.owner with
  | none => exact Or.inl rfl
  | some j =>
    rw [h.kept j howner] at hgranted
    rcases hgranted with hnone | hsome
    · cases hnone
    · exact Or.inr hsome

/-- Sources may show more flits. -/
theorem Tracks.mono (h : a.Tracks p heads) (hlength : heads'.length = heads.length)
    (hheads : ∀ i, (headOf heads i).isSome = true → (headOf heads' i).isSome = true) :
    a.Tracks p heads' :=
  ⟨h.sound, by rw [hlength]; exact h.sources, by rw [hlength]; exact h.within, h.kept,
    fun i hi => (h.shown i hi).imp_right (hheads i)⟩

theorem lt_of_headOf {i : Nat} {f : Flit} (h : headOf heads i = some f) : i < heads.length := by
  by_contra hle
  rw [headOf_eq_none_of_le (Nat.not_lt.mp hle)] at h
  cases h

/-- A flit has moved: its source is the owner, until its packet ends. -/
theorem Tracks.pass (h : a.Tracks p heads) {a' : Arbiter} {i : Nat} {f : Flit}
    (hhead : headOf heads i = some f)
    (hgranted' : a'.granted = if f.last then none else some i)
    (hlength : heads'.length = heads.length) : a'.Tracks (p.pass i f) heads' := by
  have hi := lt_of_headOf hhead
  unfold Passage.pass
  split
  · rename_i hlast
    refine ⟨?_, fun r hr => ?_, by simp, by simp, by simp [hgranted', hlast]⟩
    · simpa [Passage.pass, hlast] using h.sound.pass i f
    · rw [hlength]
      rcases List.mem_append.mp hr with hr | hr
      · exact h.sources r hr
      · rw [List.mem_singleton.mp hr]
        exact hi
  · rename_i hlast
    refine ⟨?_, by rw [hlength]; exact h.sources, ?_, ?_, ?_⟩
    · simpa [Passage.pass, hlast] using h.sound.pass i f
    · rintro j hj
      rw [hlength, ← Option.some.inj hj]
      exact hi
    · simp [hgranted', hlast]
    · simp [hgranted', hlast]

/-- A flit was presented and has not moved: its source holds the sink. -/
theorem Tracks.hold (h : a.Tracks p heads) {a' : Arbiter} {i : Nat} {f : Flit}
    (hhead : headOf heads i = some f) (hgranted : a.granted = none ∨ a.granted = some i)
    (hgranted' : a'.granted = some i) : a'.Tracks p heads := by
  refine ⟨h.sound, h.sources, h.within, fun j hj => ?_, fun j hj => Or.inr ?_⟩
  · rcases h.owner_of_granted hgranted with hnone | hsome
    · rw [hnone] at hj
      cases hj
    · rw [hgranted', ← hsome, hj]
  · obtain rfl : i = j := by simpa [hgranted'] using hj
    simp [hhead]

end Arbiter

end ProbeNet
