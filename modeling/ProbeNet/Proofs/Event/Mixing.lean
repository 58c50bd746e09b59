import Mathlib.Data.List.Permutation
import ProbeNet.Proofs.Event.Exactness

/-!
# Two events with their packets in between each other

A reassembler tells events of one pair of source and destination apart only by the packets that end
them.  When the packets of two such events come in between each other, what comes up to the first of
these packets is taken for one event, and the rest for another one.

* `Packet.IsEvent` says of packets that they are those of one event.  `isEvent_fragments` says so
  of the packets that an event is split into, and `Reassembler.events_of_isEvent` what a reassembler
  makes of them.
* `exists_two_events` takes two events in between each other apart into two events in a row.
* `interleaved_whole_iff` says when these two have the payloads of the events that were sent.
-/

namespace ProbeNet

open Packet

namespace Packet

variable {src dest : Address} {final : Subclass} {words : Nat} {ps qs : List Packet} {p : Packet}

/-- The packets of one event: all but the last say that the event goes on, and have so many words. -/
inductive IsEvent (src dest : Address) (final : Subclass) (words : Nat) :
    List Packet → Prop where
  | last (payload : List Word) :
    IsEvent src dest final words [{ dest, src, kind := .event final, payload }]
  | goesOn (payload : List Word) (hwords : payload.length = words) {ps : List Packet}
    (h : IsEvent src dest final words ps) :
    IsEvent src dest final words ({ dest, src, kind := .event .eventContinuation, payload } :: ps)

/-- An event is split into its packets. -/
theorem isEvent_fragments (dest src : Address) (final : Subclass) (limit : Nat)
    (payload : List Word) :
    IsEvent src dest final (limit + 1) (fragments dest src final limit payload) ∧
      payloads (fragments dest src final limit payload) = payload := by
  fun_induction fragments dest src final limit payload with
  | case1 payload hfits => exact ⟨.last payload, payloads_singleton _⟩
  | case2 payload hlong ih =>
    refine ⟨.goesOn _ ?_ ih.1, ?_⟩
    · rw [List.length_take]
      omega
    · rw [payloads, List.flatMap_cons]
      show payload.take (limit + 1) ++ payloads _ = payload
      rw [ih.2, List.take_append_drop]

/-- An event has a packet that ends it, and those in front of that one have so many words each. -/
theorem IsEvent.eq_snoc (h : IsEvent src dest final words ps) :
    ∃ front p, ps = front ++ [p] ∧ p.kind = .event final ∧
      ∀ q ∈ front, q.payload.length = words ∧ q.continues = true := by
  induction h with
  | last payload => exact ⟨[], _, rfl, rfl, by simp⟩
  | goesOn payload hwords h ih =>
    obtain ⟨front, p, rfl, hkind, hfront⟩ := ih
    refine ⟨_ :: front, p, rfl, hkind, fun q hq => ?_⟩
    rcases List.mem_cons.mp hq with rfl | hq
    · exact ⟨hwords, rfl⟩
    · exact hfront q hq

theorem length_payloads (h : ∀ p ∈ ps, p.payload.length = words) :
    (payloads ps).length = words * ps.length := by
  induction ps with
  | nil => rfl
  | cons p ps ih =>
    rw [payloads, List.flatMap_cons, List.length_append, h p List.mem_cons_self]
    show words + (payloads ps).length = _
    rw [ih fun q hq => h q (List.mem_cons_of_mem p hq), List.length_cons, Nat.mul_succ,
      Nat.add_comm]

end Packet

namespace Reassembler

variable {src dest : Address} {final : Subclass} {words : Nat} {ps qs : List Packet}
  {r : Reassembler}

/-- The packets of an event complete it, behind what there is of it already. -/
theorem events_of_isEvent (hfinal : final.isContinuation = false) (hlimit : r.wordLimit = none)
    (h : IsEvent src dest final words ps) :
    r.events ps =
        [⟨src, dest, final, (r.pending (src, dest)).payload ++ payloads ps,
          (r.pending (src, dest)).packets + ps.length⟩] ∧
      (r.after ps).pending (src, dest) = {} := by
  have hfits : ∀ r : Reassembler, r.wordLimit = none → ∀ n, r.exceeds n = false := fun r h n =>
    exceeds_of_unlimited h n
  induction h generalizing r with
  | last payload =>
    rcases r.push_cases (p := ⟨dest, src, .event final, payload⟩) rfl with
      ⟨hlong, -⟩ | ⟨-, hgoes, -⟩ | ⟨-, -, hout, hnext⟩
    · cases hlong.symm.trans (hfits r hlimit _)
    · cases hgoes.symm.trans hfinal
    · exact ⟨by simp [events, completed?, hout, Except.toOption, extend_eq], hnext⟩
  | goesOn payload hwords h ih =>
    rename_i ps
    let first : Packet := ⟨dest, src, .event .eventContinuation, payload⟩
    rcases r.push_cases (p := first) rfl with ⟨hlong, -⟩ | ⟨-, -, hout, hnext⟩ | ⟨-, hends, -⟩
    · cases hlong.symm.trans (hfits r hlimit _)
    · have hpending : (r.push first).1.pending (src, dest) =
          { payload := (r.pending (src, dest)).payload ++ payload
            packets := (r.pending (src, dest)).packets + 1 } := hnext
      have hpayloads : payloads (first :: ps) = payload ++ payloads ps := List.flatMap_cons
      obtain ⟨hevents, hafter⟩ := ih (r := (r.push first).1) ((wordLimit_push r first).trans hlimit)
      refine ⟨?_, hafter⟩
      show r.events (first :: ps) = _
      rw [events, completed?, hout, hevents, hpending, hpayloads]
      simp [Except.toOption, Nat.add_assoc, Nat.add_comm 1]
    · exact absurd hends (by decide)

/-- Two events in a row are the two events that a new reassembler returns. -/
theorem events_of_two (hfinal : final.isContinuation = false)
    (hps : IsEvent src dest final words ps) (hqs : IsEvent src dest final words qs) :
    (initial none).events (ps ++ qs) =
      [⟨src, dest, final, payloads ps, ps.length⟩, ⟨src, dest, final, payloads qs, qs.length⟩] := by
  obtain ⟨hfirst, hpending⟩ := events_of_isEvent (r := initial none) hfinal rfl hps
  obtain ⟨hsecond, -⟩ := events_of_isEvent (r := (initial none).after ps) hfinal
    (wordLimit_after _ ps) hqs
  have hnone : (initial none).pending (src, dest) = {} := rfl
  rw [events_append, hfirst, hsecond, hpending, hnone, List.nil_append, List.nil_append,
    Nat.zero_add, Nat.zero_add]
  rfl

end Reassembler

/-! ## Two events -/

section Interleaved

variable {src dest : Address} {final : Subclass} {words : Nat} {zs : List (Nat × Packet)}

/-- Two events in between each other are two events in a row.  Behind the packet that ends the first
one there are only packets of the other call. -/
theorem exists_two_events (hcalls : ∀ z ∈ zs, z.1 < 2)
    (hown : ∀ k < 2, IsEvent src dest final words ((zs.filter (·.1 = k)).map Prod.snd)) :
    ∃ front x back, zs = front ++ x :: back ∧
      IsEvent src dest final words ((front ++ [x]).map Prod.snd) ∧
      IsEvent src dest final words (back.map Prod.snd) ∧ ∀ y ∈ back, y.1 ≠ x.1 := by
  -- On the packets, up to the first one that ends an event.
  induction zs with
  | nil => cases hown 0 (by omega)
  | cons z zs ih =>
    have hz := hcalls z List.mem_cons_self
    have hrest : ∀ y ∈ zs, y.1 < 2 := fun y hy => hcalls y (List.mem_cons_of_mem z hy)
    have hevent := hown z.1 hz
    rw [List.filter_cons_of_pos (by simp), List.map_cons] at hevent
    have hothers : ∀ k, k < 2 → k ≠ z.1 →
        IsEvent src dest final words ((zs.filter (·.1 = k)).map Prod.snd) := by
      intro k hk hne
      have hother := hown k hk
      rwa [List.filter_cons_of_neg (by simpa using hne.symm)] at hother
    generalize htail : (zs.filter (·.1 = z.1)).map Prod.snd = tail at hevent
    obtain ⟨k, p⟩ := z
    cases hevent with
    | last payload =>
      have hnone : ∀ y ∈ zs, y.1 ≠ k := fun y hy heq =>
        List.filter_eq_nil_iff.mp (List.map_eq_nil_iff.mp htail) y hy (by simpa using heq)
      have hall : zs.filter (·.1 = 1 - k) = zs := by
        refine List.filter_eq_self.mpr fun y hy => ?_
        have hlt := hrest y hy
        have hne := hnone y hy
        exact decide_eq_true (by omega)
      have hother := hothers (1 - k) (by omega) (by show 1 - k ≠ k; omega)
      rw [hall] at hother
      exact ⟨[], _, zs, rfl, .last payload, hother, hnone⟩
    | goesOn payload hwords hevent =>
      have hown' : ∀ j, j < 2 → IsEvent src dest final words
          ((zs.filter (·.1 = j)).map Prod.snd) := by
        intro j hj
        by_cases hjk : j = k
        · rw [hjk]
          exact htail ▸ hevent
        · exact hothers j hj hjk
      obtain ⟨front, x, back, rfl, hfirst, hsecond, hback⟩ := ih hrest hown'
      exact ⟨_ :: front, x, back, rfl, .goesOn payload hwords hfirst, hsecond, hback⟩

/-- Of two calls, the one that ends first is over with the packet that ends it, and all that comes
behind is of the other. -/
theorem filter_of_split {front back : List (Nat × Packet)} {x : Nat × Packet}
    (hcalls : ∀ z ∈ front ++ x :: back, z.1 < 2) (hback : ∀ y ∈ back, y.1 ≠ x.1) :
    (front ++ x :: back).filter (·.1 = x.1) = front.filter (·.1 = x.1) ++ [x] ∧
      (front ++ x :: back).filter (·.1 = 1 - x.1) = front.filter (·.1 = 1 - x.1) ++ back := by
  have hx := hcalls x (by simp)
  have hnone : back.filter (·.1 = x.1) = [] :=
    List.filter_eq_nil_iff.mpr fun y hy => by simpa using hback y hy
  have hall : back.filter (·.1 = 1 - x.1) = back := by
    refine List.filter_eq_self.mpr fun y hy => ?_
    have hlt := hcalls y (by simp [hy])
    have hne := hback y hy
    exact decide_eq_true (by omega)
  constructor
  · rw [List.filter_append, List.filter_cons_of_pos (by simp), hnone]
  · rw [List.filter_append, List.filter_cons_of_neg (by simp; omega), hall]

/-- What comes up to the first packet that ends an event is what one call has sent if and only if
all of it is of this call. -/
theorem payloads_eq_own_iff {front : List (Nat × Packet)} {x : Nat × Packet}
    (hwords : 0 < words) (hfront : ∀ y ∈ front, y.2.payload.length = words) :
    payloads ((front ++ [x]).map Prod.snd) =
        payloads ((front.filter (·.1 = x.1) ++ [x]).map Prod.snd) ↔
      ∀ y ∈ front, y.1 = x.1 := by
  have hlength : ∀ ys : List (Nat × Packet), ys ⊆ front →
      (payloads ((ys ++ [x]).map Prod.snd)).length = words * ys.length + x.2.payload.length := by
    intro ys hys
    have hall : ∀ p ∈ ys.map Prod.snd, p.payload.length = words := by
      intro p hp
      obtain ⟨y, hy, rfl⟩ := List.mem_map.mp hp
      exact hfront y (hys hy)
    rw [List.map_append, payloads_append, List.length_append, length_payloads hall,
      List.length_map]
    exact congrArg (words * ys.length + ·) (congrArg List.length (payloads_singleton x.2))
  constructor
  · intro heq y hy
    have hsame := congrArg List.length heq
    rw [hlength front (List.Subset.refl front), hlength _ (List.filter_subset_self front)] at hsame
    have hall : (front.filter (·.1 = x.1)).length = front.length :=
      Nat.eq_of_mul_eq_mul_left hwords (by omega)
    simpa using List.length_filter_eq_length_iff.mp hall y hy
  · intro hall
    rw [List.filter_eq_self.mpr fun y hy => decide_eq_true (hall y hy)]

/-- Two calls send an event each, and the packets of the two come in between each other.  A new
reassembler without a limit returns two events: one of the packets up to the first that ends an
event, and one of the others.  They have the payloads that were sent if and only if no packet of the
other call comes before that first end, or the payloads are such that it makes no difference. -/
theorem interleaved_whole_iff {limit : Nat} {payload : Nat → List Word}
    (hfinal : final.isContinuation = false) (hcalls : ∀ z ∈ zs, z.1 < 2)
    (hown : ∀ k < 2,
      (zs.filter (·.1 = k)).map Prod.snd = fragments dest src final limit (payload k)) :
    ∃ front x back, zs = front ++ x :: back ∧ (∀ y ∈ front, y.2.continues = true) ∧
      x.2.kind = .event final ∧
      (Reassembler.initial none).events (zs.map Prod.snd) =
        [⟨src, dest, final, payloads ((front ++ [x]).map Prod.snd), front.length + 1⟩,
          ⟨src, dest, final, payloads (back.map Prod.snd), back.length⟩] ∧
      ([payloads ((front ++ [x]).map Prod.snd), payloads (back.map Prod.snd)].Perm
          [payload 0, payload 1] ↔
        (∀ y ∈ front, y.1 = x.1) ∨
          payloads ((front ++ [x]).map Prod.snd) = payload (1 - x.1) ∧
            payloads (back.map Prod.snd) = payload x.1) := by
  have hpayload : ∀ k < 2, payload k = payloads ((zs.filter (·.1 = k)).map Prod.snd) := by
    intro k hk
    rw [hown k hk, (isEvent_fragments dest src final limit (payload k)).2]
  obtain ⟨front, x, back, rfl, hfirst, hsecond, hback⟩ := exists_two_events hcalls fun k hk => by
    rw [hown k hk]
    exact (isEvent_fragments dest src final limit (payload k)).1
  have hx := hcalls x (by simp)
  obtain ⟨hkind, hfront⟩ : x.2.kind = .event final ∧
      ∀ y ∈ front, y.2.payload.length = limit + 1 ∧ y.2.continues = true := by
    obtain ⟨ps, p, heq, hkind, hps⟩ := hfirst.eq_snoc
    rw [List.map_append] at heq
    obtain ⟨rfl, hp⟩ := List.append_inj' heq rfl
    obtain rfl : x.2 = p := by simpa using hp
    exact ⟨hkind, fun y hy => hps y.2 (List.mem_map_of_mem hy)⟩
  obtain ⟨hmine, hothers⟩ := filter_of_split hcalls hback
  have hown_first : payload x.1 = payloads ((front.filter (·.1 = x.1) ++ [x]).map Prod.snd) := by
    rw [hpayload x.1 hx, hmine]
  have hown_second : payload (1 - x.1) =
      payloads ((front.filter (·.1 = 1 - x.1) ++ back).map Prod.snd) := by
    rw [hpayload (1 - x.1) (by omega), hothers]
  have hpair : ∀ first second : List Word, [first, second].Perm [payload 0, payload 1] ↔
      first = payload x.1 ∧ second = payload (1 - x.1) ∨
        first = payload (1 - x.1) ∧ second = payload x.1 := by
    intro first second
    rw [List.perm_pair]
    obtain hzero | hone : x.1 = 0 ∨ x.1 = 1 := by omega
    · simp [hzero]
    · simp [hone, or_comm]
  refine ⟨front, x, back, rfl, fun y hy => (hfront y hy).2, hkind, ?_, ?_⟩
  · rw [List.append_cons front x back, List.map_append,
      Reassembler.events_of_two hfinal hfirst hsecond, List.length_map, List.length_map,
      List.length_append, List.length_singleton]
  · have hown_iff := payloads_eq_own_iff (x := x) (Nat.succ_pos limit) fun y hy => (hfront y hy).1
    rw [← hown_first] at hown_iff
    rw [hpair, ← hown_iff]
    constructor
    · rintro (⟨hsame, -⟩ | hother)
      · exact Or.inl hsame
      · exact Or.inr hother
    · rintro (hsame | hother)
      · have hnone : front.filter (·.1 = 1 - x.1) = [] := by
          refine List.filter_eq_nil_iff.mpr fun y hy => ?_
          have heq := hown_iff.mp hsame y hy
          rw [decide_eq_true_eq]
          omega
        rw [hnone, List.nil_append] at hown_second
        exact Or.inl ⟨hsame, hown_second.symm⟩
      · exact Or.inr hother

end Interleaved

end ProbeNet
