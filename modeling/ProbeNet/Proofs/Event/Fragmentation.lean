import Mathlib.Algebra.Order.Floor.Div
import ProbeNet.Proofs.Event.Mixing

/-!
# Events that are cut into packets

An event is cut into full packets that say that it goes on, and a last one with what is left.  A
reassembler that gets these packets one after the other returns the event with the last of them,
whatever else it is waiting for, and is then what it was before.

* `length_fragments` counts the packets of an event, and `exists_fragments` takes the last one off.
* `Reassembler.withRun` is a reassembler in the middle of an event.  `push_withRun` is the step from
  there, and `after_goingOn` where the packets in front of the last one lead.
* `fragments_reassemble` puts it together.
-/

namespace ProbeNet

open Packet

/-! ## The packets of an event -/

section Fragments

variable {dest src : Address} {final : Subclass} {limit : Nat} {payload : List Word}

/-- No packet of an event with a payload is empty. -/
theorem payload_ne_nil_of_mem_fragments {p : Packet} (hpayload : payload ≠ [])
    (h : p ∈ fragments dest src final limit payload) : p.payload ≠ [] := by
  fun_induction fragments dest src final limit payload with
  | case1 payload hfits =>
    rw [List.mem_singleton.mp h]
    exact hpayload
  | case2 payload hlong ih =>
    rcases List.mem_cons.mp h with rfl | h
    · simpa using hpayload
    · exact ih (by rw [ne_eq, List.drop_eq_nil_iff]; omega) h

/-- An event takes as many packets as its payload fills, and one when it has no payload. -/
theorem length_fragments (dest src : Address) (final : Subclass) (limit : Nat)
    (payload : List Word) :
    (fragments dest src final limit payload).length =
      max 1 (payload.length ⌈/⌉ (limit + 1)) := by
  fun_induction fragments dest src final limit payload with
  | case1 payload hfits =>
    have hone : payload.length ⌈/⌉ (limit + 1) ≤ 1 := by
      rw [ceilDiv_le_iff_le_mul (Nat.succ_pos limit), Nat.mul_one]
      exact hfits
    rw [List.length_singleton, Nat.max_eq_left hone]
  | case2 payload hlong ih =>
    have hsplit : payload.length + (limit + 1) - 1 =
        payload.length - (limit + 1) + (limit + 1) - 1 + (limit + 1) := by
      omega
    have hceil : payload.length ⌈/⌉ (limit + 1) =
        (payload.length - (limit + 1)) ⌈/⌉ (limit + 1) + 1 := by
      rw [Nat.ceilDiv_eq_add_pred_div, Nat.ceilDiv_eq_add_pred_div, hsplit,
        Nat.add_div_right _ (Nat.succ_pos limit)]
    have hrest : 0 < (payload.length - (limit + 1)) ⌈/⌉ (limit + 1) := by
      rw [Nat.ceilDiv_eq_add_pred_div]
      exact Nat.div_pos (by omega) (Nat.succ_pos limit)
    rw [List.length_cons, ih, List.length_drop, hceil]
    omega

/-- All packets of an event but the last are full and say that it goes on.  The last one has the
subclass of the event and what is left of its payload. -/
theorem exists_fragments (dest src : Address) (final : Subclass) (limit : Nat)
    (payload : List Word) :
    ∃ front last, fragments dest src final limit payload = front ++ [last] ∧
      (∀ p ∈ front, p.kind = .event .eventContinuation ∧ p.payload.length = limit + 1) ∧
      last.kind = .event final ∧ last.payload.length ≤ limit + 1 ∧
      (payload ≠ [] → last.payload ≠ []) := by
  obtain ⟨front, last, hsplit, hkind, hfront⟩ :=
    (isEvent_fragments dest src final limit payload).1.eq_snoc
  have hlast : last ∈ fragments dest src final limit payload := by simp [hsplit]
  refine ⟨front, last, hsplit, fun p hp => ?_, hkind, length_of_mem_fragments hlast,
    fun hpayload => payload_ne_nil_of_mem_fragments hpayload hlast⟩
  obtain ⟨hwords, hcontinues⟩ := hfront p hp
  have hmem : p ∈ fragments dest src final limit payload := by simp [hsplit, hp]
  obtain ⟨sub, hsub⟩ := exists_kind_of_event (mem_fragments hmem).2.2
  rw [continues, hsub] at hcontinues
  obtain rfl : sub = .eventContinuation := by simpa [Subclass.isContinuation] using hcontinues
  exact ⟨hsub, hwords⟩

end Fragments

namespace Reassembler

variable {r : Reassembler} {pair : Address × Address} {ps : List Packet} {p : Packet}
  {sub : Subclass}

/-- What a reassembler returns for packets that are pushed one after the other. -/
def outcomes (r : Reassembler) : List Packet → List (Except EventError (Option Event))
  | [] => []
  | p :: ps => (r.push p).2 :: (r.push p).1.outcomes ps

theorem outcomes_snoc (r : Reassembler) (ps : List Packet) (p : Packet) :
    r.outcomes (ps ++ [p]) = r.outcomes ps ++ [((r.after ps).push p).2] := by
  induction ps generalizing r with
  | nil => rfl
  | cons q ps ih => rw [List.cons_append, outcomes, ih, outcomes, after_cons, List.cons_append]

/-! ## In the middle of an event -/

/-- The reassembler that has moreover the packets `ps` of an event of a pair. -/
def withRun (r : Reassembler) (pair : Address × Address) (ps : List Packet) : Reassembler :=
  match EventRun.ofPackets? ps with
  | none => r
  | some run => { r with runs := r.runs.insert pair run }

theorem withRun_nil (r : Reassembler) (pair : Address × Address) : r.withRun pair [] = r := rfl

theorem withRun_of_ne_nil (h : ps ≠ []) :
    r.withRun pair ps =
      { r with runs := r.runs.insert pair { payload := payloads ps, packets := ps.length } } := by
  rw [withRun, EventRun.ofPackets?, if_neg h]

/-- The events of other pairs are not concerned. -/
theorem find?_withRun_of_ne {other : Address × Address} (h : other ≠ pair) :
    (r.withRun pair ps).runs.find? other = r.runs.find? other := by
  by_cases hps : ps = []
  · rw [hps, withRun_nil]
  · rw [withRun_of_ne_nil hps, Table.find?_insert, if_neg (Ne.symm h)]

theorem wordLimit_withRun (r : Reassembler) (pair : Address × Address) (ps : List Packet) :
    (r.withRun pair ps).wordLimit = r.wordLimit := by
  by_cases hps : ps = []
  · rw [hps, withRun_nil]
  · rw [withRun_of_ne_nil hps]

theorem extend_withRun (hnone : r.runs.find? pair = none) (payload : List Word) :
    (r.withRun pair ps).extend pair payload =
      { payload := payloads ps ++ payload, packets := ps.length + 1 } := by
  by_cases hps : ps = []
  · simp [hps, withRun_nil, extend, hnone, payloads]
  · simp [withRun_of_ne_nil hps, extend, Table.find?_insert]

/-- A packet that goes on with the event leads on, and one that ends it leads back to the
reassembler that knows nothing of it. -/
theorem push_withRun (hkind : p.kind = .event sub) (hnone : r.runs.find? (p.src, p.dest) = none)
    (hfits : r.exceeds (payloads (ps ++ [p])).length = false) :
    (r.withRun (p.src, p.dest) ps).push p =
      if sub.isContinuation then (r.withRun (p.src, p.dest) (ps ++ [p]), .ok none)
      else (r, .ok (some ⟨p.src, p.dest, sub, payloads (ps ++ [p]), (ps ++ [p]).length⟩)) := by
  have hrun : (r.withRun (p.src, p.dest) ps).extend (p.src, p.dest) p.payload =
      { payload := payloads (ps ++ [p]), packets := (ps ++ [p]).length } := by
    rw [extend_withRun hnone, payloads_append, payloads_singleton, List.length_append,
      List.length_singleton]
  have hroom : (r.withRun (p.src, p.dest) ps).exceeds
      ((r.withRun (p.src, p.dest) ps).extend (p.src, p.dest) p.payload).payload.length = false := by
    rw [hrun, exceeds, wordLimit_withRun]
    exact hfits
  rw [push_of_fits hkind hroom, hrun, withRun_of_ne_nil (show ps ++ [p] ≠ [] by simp)]
  by_cases hps : ps = []
  · rw [hps, withRun_nil, Table.erase_of_none hnone]
  · rw [withRun_of_ne_nil hps, Table.insert_insert, Table.erase_insert, Table.erase_of_none hnone]

/-- The packets of an event in front of its last one return nothing. -/
theorem after_goingOn (hnone : r.runs.find? pair = none)
    (hps : ∀ p ∈ ps, (p.src, p.dest) = pair ∧ p.kind = .event .eventContinuation)
    (hfits : r.exceeds (payloads ps).length = false) :
    r.after ps = r.withRun pair ps ∧ r.outcomes ps = List.replicate ps.length (.ok none) := by
  induction ps using List.reverseRecOn with
  | nil => exact ⟨rfl, rfl⟩
  | append_singleton ps p ih =>
    have hshorter : r.exceeds (payloads ps).length = false :=
      exceeds_of_le hfits (by rw [payloads_append, List.length_append]; omega)
    obtain ⟨hafter, houtcomes⟩ := ih (fun q hq => hps q (by simp [hq])) hshorter
    obtain ⟨rfl, hkind⟩ := hps p (by simp)
    have hpush : (r.withRun (p.src, p.dest) ps).push p =
        (r.withRun (p.src, p.dest) (ps ++ [p]), .ok none) := push_withRun hkind hnone hfits
    rw [after_snoc, outcomes_snoc, houtcomes, hafter, hpush, List.length_append,
      List.length_singleton, List.replicate_succ']
    exact ⟨rfl, rfl⟩

/-- The packets of an event return it with the last of them, and nothing of it is left. -/
theorem outcomes_of_event {front : List Packet} {last : Packet}
    (hnone : r.runs.find? (last.src, last.dest) = none)
    (hfront : ∀ p ∈ front, (p.src, p.dest) = (last.src, last.dest) ∧
      p.kind = .event .eventContinuation)
    (hkind : last.kind = .event sub) (hends : sub.isContinuation = false)
    (hfits : r.exceeds (payloads (front ++ [last])).length = false) :
    r.outcomes (front ++ [last]) =
        List.replicate front.length (.ok none) ++
          [.ok (some ⟨last.src, last.dest, sub, payloads (front ++ [last]),
            (front ++ [last]).length⟩)] ∧
      r.after (front ++ [last]) = r ∧
      ∀ sent, sent <+: front → r.after sent = r.withRun (last.src, last.dest) sent := by
  have hgoing : ∀ sent, sent <+: front →
      r.after sent = r.withRun (last.src, last.dest) sent ∧
        r.outcomes sent = List.replicate sent.length (.ok none) := by
    rintro sent ⟨rest, rfl⟩
    refine after_goingOn hnone (fun p hp => hfront p (by simp [hp])) (exceeds_of_le hfits ?_)
    simp only [payloads_append, List.length_append]
    omega
  obtain ⟨hafter, houtcomes⟩ := hgoing front List.prefix_rfl
  have hpush : (r.withRun (last.src, last.dest) front).push last =
      (r, .ok (some ⟨last.src, last.dest, sub, payloads (front ++ [last]),
        (front ++ [last]).length⟩)) := by
    rw [push_withRun hkind hnone hfits, if_neg (by rw [hends]; exact Bool.false_ne_true)]
  refine ⟨?_, ?_, fun sent hsent => (hgoing sent hsent).1⟩
  · rw [outcomes_snoc, houtcomes, hafter, hpush]
  · rw [after_snoc, hafter, hpush]

end Reassembler

/-- An event is cut into packets unless no payload word is allowed in a packet, which is reported
first, or the last packet is to say that the event goes on.

There are as many packets as its words fill, and at least one, all from the source to the
destination.  All but the last are full and say that the event goes on; the last one has the
subclass that was asked for and what is left of the payload, which is something when there is a
payload; and joined they have the payload again.

Any reassembler that has nothing of an event of this source and destination, and allows as many
words as this one has, returns nothing for these packets up to the last, and then the event.  The
events of other pairs stay as they are all the time, and in the end it is what it was before. -/
theorem fragments_reassemble (dest src : Address) (payload : List Word) (maxWords : Nat)
    (final : Subclass) :
    let outcome := fragmentWith dest src payload maxWords final
    (outcome = .error .zeroLimit ↔ maxWords = 0) ∧
      (outcome = .error .continuationAsFinal ↔ maxWords ≠ 0 ∧ final.isContinuation = true) ∧
      (maxWords ≠ 0 → final.isContinuation = false → ∃ front last,
        outcome = .ok (front ++ [last]) ∧
        (front ++ [last]).length = max 1 (payload.length ⌈/⌉ maxWords) ∧
        (∀ p ∈ front ++ [last], p.src = src ∧ p.dest = dest) ∧
        (∀ p ∈ front, p.kind = .event .eventContinuation ∧ p.payload.length = maxWords) ∧
        last.kind = .event final ∧ last.payload.length ≤ maxWords ∧
        (payload ≠ [] → last.payload ≠ []) ∧
        payloads (front ++ [last]) = payload ∧
        ∀ r : Reassembler, r.runs.find? (src, dest) = none →
          (∀ limit ∈ r.wordLimit, payload.length ≤ limit) →
          r.outcomes (front ++ [last]) =
              List.replicate front.length (.ok none) ++
                [.ok (some { src, dest, kind := final, payload,
                             packets := (front ++ [last]).length })] ∧
            r.after (front ++ [last]) = r ∧
            ∀ sent, sent <+: front → ∀ pair, pair ≠ (src, dest) →
              (r.after sent).runs.find? pair = r.runs.find? pair) := by
  intro outcome
  cases maxWords with
  | zero => simp [outcome, fragmentWith]
  | succ limit =>
    cases hfinal : final.isContinuation with
    | true => simp [outcome, fragmentWith, hfinal]
    | false =>
      have houtcome : outcome = .ok (fragments dest src final limit payload) := by
        simp [outcome, fragmentWith, hfinal]
      refine ⟨by simp [houtcome], by simp [houtcome], fun _ _ => ?_⟩
      obtain ⟨front, last, hsplit, hfront, hkind, hshort, hrest⟩ :=
        exists_fragments dest src final limit payload
      have hpair : ∀ p ∈ front ++ [last], p.src = src ∧ p.dest = dest := fun p hp => by
        obtain ⟨hdest, hsrc, -⟩ := mem_fragments (hsplit ▸ hp)
        exact ⟨hsrc, hdest⟩
      have hwhole : payloads (front ++ [last]) = payload :=
        hsplit ▸ (isEvent_fragments dest src final limit payload).2
      refine ⟨front, last, hsplit ▸ houtcome,
        hsplit ▸ length_fragments dest src final limit payload, hpair, hfront, hkind, hshort, hrest,
        hwhole, fun r hnone hlimit => ?_⟩
      have hfits : r.exceeds (payloads (front ++ [last])).length = false := by
        rw [hwhole, Reassembler.exceeds, Option.any_eq_false]
        simpa using hlimit
      obtain ⟨rfl, rfl⟩ := hpair last (by simp)
      obtain ⟨houtcomes, hafter, hmiddle⟩ := Reassembler.outcomes_of_event hnone
        (fun p hp => ⟨Prod.ext_iff.mpr (hpair p (by simp [hp])), (hfront p hp).1⟩)
        hkind hfinal hfits
      rw [hwhole] at houtcomes
      refine ⟨houtcomes, hafter, fun sent hsent pair hother => ?_⟩
      rw [hmiddle sent hsent, Reassembler.find?_withRun_of_ne hother]

/-- Five words, of which a packet has at most two, for a receiver that allows five and waits for the
rest of two other events, one of the same module to another one. -/
theorem fragments_reassemble_among_others :
    let r : Reassembler :=
      { runs := ⟨[((1, 2), ⟨[7], 1⟩), ((2, 0x3ff), ⟨[8, 9], 2⟩)]⟩, wordLimit := some 5 }
    let ps : List Packet :=
      [{ dest := 0x3ff, src := 1, kind := .event .eventContinuation, payload := [1, 2] },
        { dest := 0x3ff, src := 1, kind := .event .eventContinuation, payload := [3, 4] },
        { dest := 0x3ff, src := 1, kind := .event 5, payload := [5] }]
    fragmentWith 0x3ff 1 [1, 2, 3, 4, 5] 2 5 = .ok ps ∧
      r.outcomes ps = [.ok none, .ok none,
        .ok (some { src := 1, dest := 0x3ff, kind := 5, payload := [1, 2, 3, 4, 5],
                    packets := 3 })] ∧
      r.after ps = r := by
  intro r ps
  have hps : fragmentWith 0x3ff 1 [1, 2, 3, 4, 5] 2 5 = .ok ps := by
    simp [fragmentWith, fragments, Subclass.isContinuation, Subclass.eventContinuation, ps]
  obtain ⟨front, last, houtcome, -, -, -, -, -, -, -, hreceives⟩ :=
    (fragments_reassemble 0x3ff 1 [1, 2, 3, 4, 5] 2 5).2.2 (by decide) (by decide)
  have hall : front ++ [last] = ps := Except.ok.inj (houtcome.symm.trans hps)
  have hfront : front.length = 2 := by simpa [ps] using congrArg List.length hall
  obtain ⟨houtcomes, hafter, -⟩ := hreceives r (by decide) (by decide)
  rw [hall, hfront] at houtcomes
  rw [hall] at hafter
  exact ⟨hps, houtcomes, hafter⟩

end ProbeNet
