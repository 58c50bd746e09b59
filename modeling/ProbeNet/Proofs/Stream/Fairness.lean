import Mathlib.Data.Fin.VecNotation
import Mathlib.Data.Finset.Card
import ProbeNet.Proofs.Stream.Merging

/-!
# How often a source is passed over

A source that shows a flit in every step gets the sink after every other source has had one packet
at most.  The sources are looked at in a circle, and the place from which the next search counts, or
the source that holds the sink, only moves towards the one that waits.

* `Arbiter.distance` is how far a source is from a place in the circle, and `winner_of_offer` says
  that nobody behind a source with a flit gets the sink before it.
* `Arbiter.Ahead` are the sources that may still have a packet before one that waits.  `ahead_step`
  says that a step adds none of them and takes the one away whose packet ends.
* `Arbiter.Waits` is the wait of a source, step by step, with the packets that end in it, and
  `Waits.passes` follows it.
-/

namespace ProbeNet

/-- What `n` sources show in a step, and whether the sink is ready. -/
structure Offer (n : Nat) where
  flits : Fin n → Option Flit
  ready : Bool

namespace Offer

variable {n : Nat} (o : Offer n)

/-- What an arbiter sees of the sources. -/
def heads : List (Option Flit) := List.ofFn o.flits

@[simp] theorem length_heads : o.heads.length = n := List.length_ofFn

@[simp] theorem headOf_heads (i : Fin n) : Arbiter.headOf o.heads i = o.flits i := by
  simp [Arbiter.headOf, heads]

end Offer

namespace Arbiter

variable {n : Nat} {a b : Arbiter} {o : Offer n} {i j x : Nat}

/-! ## Steps -/

/-- The arbiter after a step. -/
def step (a : Arbiter) (o : Offer n) : Arbiter := (a.tick o.heads o.ready).1

/-- The source whose packet ends in a step. -/
def ended? (a : Arbiter) (o : Offer n) : Option Nat :=
  ((a.tick o.heads o.ready).2.filter fun moved => o.ready && moved.2.last).map Prod.fst

/-- The arbiter after some steps. -/
def after (a : Arbiter) (os : List (Offer n)) : Arbiter := os.foldl step a

/-- The source that holds the sink, or the one at which the next search starts. -/
def place (a : Arbiter) : Nat := a.granted.getD a.next

/-- The source that gets the sink keeps it, or its packet ends and the next search starts behind
it. -/
theorem step_of_winner (h : a.winner o.heads = some i) :
    (a.step o).place = i ∧ a.ended? o = none ∨
      (a.step o).place = (i + 1) % n ∧ a.ended? o = some i := by
  cases hhead : headOf o.heads i with
  | none =>
    have htick : a.tick o.heads o.ready = ({ a with granted := some i }, none) := by
      simp only [tick, h, hhead]
    simp [step, ended?, place, htick]
  | some f =>
    cases hends : o.ready && f.last with
    | true =>
      have htick : a.tick o.heads o.ready =
          ({ granted := none, next := (i + 1) % n }, some (i, f)) := by
        simp only [tick, h, hhead, hends, if_true, Offer.length_heads]
      exact Or.inr ⟨by simp [step, place, htick], by simp [ended?, htick, Option.filter, hends]⟩
    | false =>
      have htick : a.tick o.heads o.ready = ({ a with granted := some i }, some (i, f)) := by
        simp [tick, h, hhead, hends]
      exact Or.inl ⟨by simp [step, place, htick], by simp [ended?, htick, Option.filter, hends]⟩

/-- An arbiter only looks at sources that there are. -/
theorem place_step (hplace : a.place < n) : (a.step o).place < n := by
  cases hwinner : a.winner o.heads with
  | none => simpa [step, tick, hwinner] using hplace
  | some i =>
    have hi : i < n := by
      rw [← o.length_heads]
      refine winner_lt (fun k hgranted => ?_) hwinner
      simpa [place, hgranted] using hplace
    rcases step_of_winner hwinner with ⟨hstays, -⟩ | ⟨hgoes, -⟩
    · exact hstays ▸ hi
    · exact hgoes ▸ Nat.mod_lt _ (Nat.zero_lt_of_lt hi)

theorem place_after (hplace : a.place < n) (history : List (Offer n)) :
    (a.after history).place < n := by
  induction history generalizing a with
  | nil => exact hplace
  | cons o history ih => exact ih (place_step hplace)

/-! ## The circle -/

/-- How many sources a search that starts at `s` looks at before it comes to `x`. -/
def distance (n s x : Nat) : Nat := if s ≤ x then x - s else n - s + x

theorem add_distance_mod {s : Nat} (hs : s < n) (hx : x < n) : (s + distance n s x) % n = x := by
  unfold distance
  split
  · rw [Nat.add_sub_cancel' ‹_›, Nat.mod_eq_of_lt hx]
  · rw [show s + (n - s + x) = x + n by omega, Nat.add_mod_right, Nat.mod_eq_of_lt hx]

theorem distance_add_mod {s k : Nat} (hs : s < n) (hk : k < n) :
    distance n s ((s + k) % n) = k := by
  unfold distance
  by_cases hwrap : s + k < n
  · rw [Nat.mod_eq_of_lt hwrap, if_pos (Nat.le_add_right s k), Nat.add_sub_cancel_left]
  · rw [Nat.mod_eq_sub_mod (Nat.le_of_not_lt hwrap), Nat.mod_eq_of_lt (by omega)]
    rw [if_neg (by omega)]
    omega

/-- No two sources are equally far. -/
theorem eq_of_distance_eq {s y : Nat} (hs : s < n) (hx : x < n) (hy : y < n)
    (h : distance n s x = distance n s y) : x = y := by
  rw [← add_distance_mod hs hx, h, add_distance_mod hs hy]

/-- When a source shows a flit, the sink goes to it or to one that is looked at earlier. -/
theorem winner_of_offer (hplace : a.place < n) (hj : j < n)
    (hoffers : (headOf o.heads j).isSome = true) :
    ∃ i, i < n ∧ a.winner o.heads = some i ∧ distance n a.place i ≤ distance n a.place j := by
  unfold winner
  cases hgranted : a.granted with
  | some i =>
    have hi : a.place = i := by simp [place, hgranted]
    refine ⟨i, hi ▸ hplace, rfl, ?_⟩
    rw [hi, distance, if_pos (Nat.le_refl i), Nat.sub_self]
    exact Nat.zero_le _
  | none =>
    have hnext : a.place = a.next := by simp [place, hgranted]
    rw [hnext] at hplace ⊢
    have hshown : (headOf o.heads ((a.next + distance n a.next j) % n)).isSome = true := by
      rw [add_distance_mod hplace hj]
      exact hoffers
    rw [Offer.length_heads]
    cases hfirst : (a.searchOrder n).find? fun i => (headOf o.heads i).isSome with
    | none =>
      have hnone := List.find?_eq_none.mp hfirst j (mem_searchOrder hj)
      exact absurd hoffers hnone
    | some i =>
      rw [searchOrder, List.find?_map, Option.map_eq_some_iff] at hfirst
      obtain ⟨k, hk, rfl⟩ := hfirst
      obtain ⟨-, hrange, hearlier⟩ := List.find?_range_eq_some.mp hk
      have hk : k < n := List.mem_range.mp hrange
      refine ⟨(a.next + k) % n, Nat.mod_lt _ (Nat.zero_lt_of_lt hj), rfl, ?_⟩
      rw [distance_add_mod hplace hk]
      by_contra hlater
      have hnot := hearlier _ (Nat.lt_of_not_le hlater)
      simp [hshown] at hnot

/-! ## Waiting -/

/-- The sources that may still have a packet before source `j`. -/
def Ahead (n : Nat) (a : Arbiter) (j x : Nat) : Prop :=
  x < n ∧ distance n a.place x < distance n a.place j

/-- Whoever is ahead from a place further on in the circle was ahead before. -/
theorem distance_lt_of_later {s t : Nat} (hs : s < n) (ht : t < n) (hj : j < n) (hx : x < n)
    (hle : distance n s t ≤ distance n s j) (h : distance n t x < distance n t j) :
    distance n s x < distance n s j := by
  unfold distance at *
  split_ifs at * <;> omega

/-- The place behind a source that is ahead of `j` is not past `j`, and seen from there the source
comes no earlier than `j`. -/
theorem distance_succ {s : Nat} (hs : s < n) (hi : i < n) (hj : j < n)
    (hlt : distance n s i < distance n s j) :
    distance n s ((i + 1) % n) ≤ distance n s j ∧
      distance n ((i + 1) % n) j ≤ distance n ((i + 1) % n) i := by
  rcases Nat.lt_or_ge (i + 1) n with hnext | hnext
  · rw [Nat.mod_eq_of_lt hnext]
    unfold distance at *
    split_ifs at * <;> omega
  · obtain rfl : n = i + 1 := by omega
    rw [Nat.mod_self]
    unfold distance at *
    split_ifs at * <;> omega

/-- While a source waits nobody else gets ahead of it, and the source whose packet ends is ahead no
more. -/
theorem ahead_step (hplace : a.place < n) (hj : j < n)
    (hoffers : (headOf o.heads j).isSome = true) (hwaits : a.winner o.heads ≠ some j) :
    (∀ x, Ahead n (a.step o) j x → Ahead n a j x) ∧
      ∀ x, a.ended? o = some x → Ahead n a j x ∧ ¬ Ahead n (a.step o) j x := by
  obtain ⟨i, hi, hwinner, hle⟩ := winner_of_offer hplace hj hoffers
  have hlt : distance n a.place i < distance n a.place j := by
    refine Nat.lt_of_le_of_ne hle fun heq => hwaits ?_
    rw [hwinner, eq_of_distance_eq hplace hi hj heq]
  rcases step_of_winner hwinner with ⟨hstays, hended⟩ | ⟨hgoes, hended⟩
  · simp only [Ahead, hstays, hended]
    exact ⟨fun x ⟨hx, hahead⟩ => ⟨hx, distance_lt_of_later hplace hi hj hx hle hahead⟩, by simp⟩
  · obtain ⟨hnext, hlast⟩ := distance_succ hplace hi hj hlt
    have hplace' : (i + 1) % n < n := Nat.mod_lt _ (Nat.zero_lt_of_lt hi)
    simp only [Ahead, hgoes, hended]
    refine ⟨fun x ⟨hx, hahead⟩ => ⟨hx, distance_lt_of_later hplace hplace' hj hx hnext hahead⟩,
      fun x hx => ?_⟩
    obtain rfl := Option.some.inj hx
    exact ⟨⟨hi, hlt⟩, fun ⟨_, hahead⟩ => Nat.not_lt.mpr hlast hahead⟩

/-- Source `j` shows a flit in every step from one state to another and does not get the sink, and
the packets of the sources `passed` end meanwhile. -/
inductive Waits (j : Fin n) : Arbiter → List Nat → Arbiter → Prop where
  | start (a : Arbiter) : Waits j a [] a
  | step {a b : Arbiter} {passed : List Nat} (o : Offer n)
      (hoffers : (o.flits j).isSome = true) (hwaits : a.winner o.heads ≠ some j.val)
      (h : Waits j (a.step o) passed b) : Waits j a ((a.ended? o).toList ++ passed) b

/-- The packets that end are those of sources that were ahead and are ahead no more, each once. -/
theorem Waits.passes {j : Fin n} {passed : List Nat} (h : Waits j a passed b)
    (hplace : a.place < n) :
    b.place < n ∧ passed.Nodup ∧ (∀ x, Ahead n b j x → Ahead n a j x) ∧
      ∀ x ∈ passed, Ahead n a j x ∧ ¬ Ahead n b j x := by
  induction h with
  | start a => exact ⟨hplace, List.nodup_nil, fun x hx => hx, by simp⟩
  | @step a b passed o hoffers hwaits h ih =>
    obtain ⟨hfewer, hended⟩ :=
      ahead_step hplace j.isLt (by rw [Offer.headOf_heads]; exact hoffers) hwaits
    obtain ⟨hlast, hnodup, hrest, hpassed⟩ := ih (place_step hplace)
    refine ⟨hlast, ?_, fun x hx => hfewer x (hrest x hx), fun x hx => ?_⟩
    · refine List.nodup_append.mpr ⟨?_, hnodup, ?_⟩
      · cases a.ended? o <;> simp
      · rintro x hx y hy rfl
        exact (hended x (Option.mem_toList.mp hx)).2 (hpassed x hy).1
    · rcases List.mem_append.mp hx with hx | hx
      · obtain ⟨hahead, hgone⟩ := hended x (Option.mem_toList.mp hx)
        exact ⟨hahead, fun hx => hgone (hrest x hx)⟩
      · exact ⟨hfewer x (hpassed x hx).1, (hpassed x hx).2⟩

end Arbiter

/-- Take any number of sources, an arbiter that has run for any time over whatever they showed and
with a sink that was ready when it liked, and a source `j` that from then on shows a flit in every
step and does not get the sink, while the packets of the sources `passed` end.

Each other source is among them once at most, whether it held the sink when the wait began or not,
so that no more than `n - 1` packets pass.  And in the next step in which `j` shows a flit, the sink
goes to `j` or to a source that has not passed yet. -/
theorem waiting_source_is_passed_once {n : Nat} (history : List (Offer n)) (j : Fin n)
    {passed : List Nat} {b : Arbiter}
    (h : Arbiter.Waits j (({} : Arbiter).after history) passed b) :
    (∀ i ∈ passed, i < n ∧ i ≠ j ∧ passed.count i = 1) ∧ passed.length ≤ n - 1 ∧
      ∀ o : Offer n, (o.flits j).isSome = true →
        ∃ i < n, b.winner o.heads = some i ∧ i ∉ passed := by
  have hplace : (({} : Arbiter).after history).place < n :=
    Arbiter.place_after (Nat.zero_lt_of_lt j.isLt) history
  obtain ⟨hplace', hnodup, -, hpassed⟩ := h.passes hplace
  have hothers : ∀ i ∈ passed, i < n ∧ i ≠ j := fun i hi =>
    ⟨(hpassed i hi).1.1, fun heq => Nat.lt_irrefl _ (heq ▸ (hpassed i hi).1.2)⟩
  refine ⟨fun i hi => ⟨(hothers i hi).1, (hothers i hi).2, List.count_eq_one_of_mem hnodup hi⟩, ?_,
    fun o hoffers => ?_⟩
  · have hsubset : passed.toFinset ⊆ (Finset.range n).erase j := fun i hi =>
      Finset.mem_erase.mpr ⟨(hothers i (List.mem_toFinset.mp hi)).2,
        Finset.mem_range.mpr (hothers i (List.mem_toFinset.mp hi)).1⟩
    calc passed.length = passed.toFinset.card := (List.toFinset_card_of_nodup hnodup).symm
      _ ≤ ((Finset.range n).erase j).card := Finset.card_le_card hsubset
      _ = n - 1 := by
        rw [Finset.card_erase_of_mem (Finset.mem_range.mpr j.isLt), Finset.card_range]
  · obtain ⟨i, hi, hwinner, hle⟩ :=
      Arbiter.winner_of_offer hplace' j.isLt (by rw [Offer.headOf_heads]; exact hoffers)
    refine ⟨i, hi, hwinner, fun hmem => ?_⟩
    obtain ⟨-, hgone⟩ := hpassed i hmem
    have hfront : Arbiter.distance n b.place i = Arbiter.distance n b.place j :=
      Nat.le_antisymm hle (Nat.not_lt.mp fun hlt => hgone ⟨hi, hlt⟩)
    exact (hothers i hmem).2 (Arbiter.eq_of_distance_eq hplace' hi j.isLt hfront)

/-- Source 1 of three has the sink and then shows nothing for a step, in which source 0 begins to
wait.  The packet of source 1 ends, and so does one of source 2, which the sink refuses at first.
Then it is the turn of source 0. -/
theorem waiting_source_is_passed_once_by_all :
    let all (ready : Bool) : Offer 3 := ⟨![some ⟨1, true⟩, some ⟨8, true⟩, some ⟨5, true⟩], ready⟩
    let history : List (Offer 3) := [⟨![none, some ⟨7, false⟩, none], true⟩]
    let waited := [⟨![some ⟨1, true⟩, none, none], true⟩, all true, all false, all true]
    let b := ({} : Arbiter).after (history ++ waited)
    Arbiter.Waits (0 : Fin 3) (({} : Arbiter).after history) [1, 2] b ∧
      [1, 2].length ≤ 3 - 1 ∧ ∃ i < 3, b.winner (all true).heads = some i ∧ i ∉ [1, 2] := by
  intro all history waited b
  have hwaits : Arbiter.Waits (0 : Fin 3) (({} : Arbiter).after history) [1, 2] b :=
    .step ⟨![some ⟨1, true⟩, none, none], true⟩ rfl (by decide) <|
      .step (all true) rfl (by decide) <| .step (all false) rfl (by decide) <|
        .step (all true) rfl (by decide) <| .start _
  obtain ⟨-, hcount, hturn⟩ := waiting_source_is_passed_once history 0 hwaits
  exact ⟨hwaits, hcount, hturn (all true) rfl⟩

end ProbeNet
