import Mathlib.Data.Set.Card
import ProbeNet.Proofs.Event.Delivery

/-!
# Reassembly without a limit

A reassembler without a limit forgets nothing.  Whatever packets it has been given, it
keeps one run for each pair of source and destination whose latest event packet says that
the event goes on, and in this run the packets of that event.

* `EventRun.ofPackets?` is the run that a reassembler keeps for some packets.
* `Reassembler.Exact` is what every packet keeps, and `Exact.push_eq` what a reassembler
  in this state returns.
* `events_eventsOf` says that the events of a pair depend on the event packets of this pair
  only, and `reassembly_is_exact` puts it all together.
-/

namespace ProbeNet

open Packet

namespace Packet

variable {pair : Address × Address} {ps : List Packet}

/-- There is something left of an event as long as its latest packet says that it goes on. -/
theorem openEvent_ne_nil_iff :
    openEvent pair ps ≠ [] ↔ ∃ p ∈ (eventsOf pair ps).getLast?, p.continues = true := by
  rw [openEvent, ne_eq, List.rtakeWhile_eq_nil_iff]
  rcases List.eq_nil_or_concat (eventsOf pair ps) with hnil | ⟨before, p, hlast⟩
  · simp [hnil]
  · simp [hlast, List.concat_eq_append]

end Packet

/-- What a reassembler keeps of an event of which the packets `ps` have arrived: nothing
when there are none. -/
def EventRun.ofPackets? (ps : List Packet) : Option EventRun :=
  if ps = [] then none else some { payload := payloads ps, packets := ps.length }

namespace Reassembler

variable {r : Reassembler} {ps : List Packet} {p : Packet} {sub : Subclass}

/-! ## One packet -/

theorem exceeds_of_unlimited (h : r.wordLimit = none) (words : Nat) : r.exceeds words = false := by
  rw [exceeds, h]
  rfl

/-- An event packet that does not make the run of its pair too long goes on with it or ends it. -/
theorem push_of_fits (hkind : p.kind = .event sub)
    (hfits : r.exceeds (r.extend (p.src, p.dest) p.payload).payload.length = false) :
    let run := r.extend (p.src, p.dest) p.payload
    r.push p =
      if sub.isContinuation then ({ r with runs := r.runs.insert (p.src, p.dest) run }, .ok none)
      else
        ({ r with runs := r.runs.erase (p.src, p.dest) },
          .ok (some ⟨p.src, p.dest, sub, run.payload, run.packets⟩)) := by
  intro run
  simp only [push, hkind]
  rw [if_neg (by rw [hfits]; exact Bool.false_ne_true)]

/-! ## Many packets -/

/-- After the packets `ps`, the reassembler has one run for each event that goes on, and the
packets of this event in it. -/
structure Exact (r : Reassembler) (ps : List Packet) : Prop where
  wordLimit : r.wordLimit = none
  keys : r.runs.keys.Nodup
  runs : ∀ pair, r.runs.find? pair = EventRun.ofPackets? (openEvent pair ps)

theorem exact_initial : Exact (initial none) [] := ⟨rfl, List.nodup_nil, fun _ => rfl⟩

/-- The run that a packet goes on with has all packets of its event. -/
theorem Exact.extend (h : r.Exact ps) (p : Packet) :
    r.extend (p.src, p.dest) p.payload =
      { payload := payloads (openEvent (p.src, p.dest) ps ++ [p])
        packets := (openEvent (p.src, p.dest) ps ++ [p]).length } := by
  have hpending : r.pending (p.src, p.dest) =
      { payload := payloads (openEvent (p.src, p.dest) ps)
        packets := (openEvent (p.src, p.dest) ps).length } := by
    rw [pending, h.runs, EventRun.ofPackets?]
    split
    · rename_i hnil
      rw [hnil]
      rfl
    · rfl
  rw [extend_eq, hpending, payloads_append, payloads_singleton, List.length_append,
    List.length_singleton]

/-- An event packet ends an event with all its packets, or nothing is returned. -/
theorem Exact.push_eq (h : r.Exact ps) (hkind : p.kind = .event sub) :
    let event := openEvent (p.src, p.dest) ps ++ [p]
    (r.push p).2 = .ok (if sub.isContinuation then none else
      some ⟨p.src, p.dest, sub, payloads event, event.length⟩) := by
  intro event
  have hpush := push_of_fits hkind (exceeds_of_unlimited h.wordLimit _)
  simp only [h.extend] at hpush
  rw [hpush]
  cases sub.isContinuation <;> rfl

/-- A packet matters for the run of its own pair only. -/
theorem Exact.of_runs (h : r.Exact ps) {r' : Reassembler} (hlimit : r'.wordLimit = r.wordLimit)
    (hkeys : r'.runs.keys.Nodup)
    (hown : r'.runs.find? (p.src, p.dest) =
      EventRun.ofPackets? (openEvent (p.src, p.dest) (ps ++ [p])))
    (hothers : ∀ pair, (p.src, p.dest) ≠ pair → r'.runs.find? pair = r.runs.find? pair) :
    r'.Exact (ps ++ [p]) := by
  refine ⟨hlimit.trans h.wordLimit, hkeys, fun pair => ?_⟩
  by_cases hpair : (p.src, p.dest) = pair
  · rw [← hpair]
    exact hown
  · rw [hothers pair hpair, h.runs, openEvent_snoc_of_not (by simp [isEventOf, hpair])]

/-- An event packet is added to the run of its pair, or takes this run away. -/
theorem Exact.push_event (h : r.Exact ps) (hkind : p.kind = .event sub) :
    (r.push p).1.Exact (ps ++ [p]) := by
  have hgoes : p.continues = sub.isContinuation := by
    rw [continues, hkind]
  have hopen : openEvent (p.src, p.dest) (ps ++ [p]) =
      if p.continues then openEvent (p.src, p.dest) ps ++ [p] else [] :=
    openEvent_snoc (by simp [isEventOf, packetClass, PacketKind.packetClass, hkind])
  have hpush := push_of_fits hkind (exceeds_of_unlimited h.wordLimit _)
  simp only [h.extend] at hpush
  rw [hgoes] at hopen
  cases hcontinues : sub.isContinuation with
  | true =>
    rw [hcontinues, if_pos rfl] at hpush hopen
    rw [hpush]
    refine h.of_runs rfl (Table.nodup_keys_insert h.keys _ _) ?_ fun pair hpair => ?_
    · rw [Table.find?_insert, if_pos rfl, hopen, EventRun.ofPackets?, if_neg (by simp)]
    · rw [Table.find?_insert, if_neg hpair]
  | false =>
    rw [hcontinues, if_neg Bool.false_ne_true] at hpush hopen
    rw [hpush]
    refine h.of_runs rfl (Table.nodup_keys_erase h.keys _) ?_ fun pair hpair => ?_
    · rw [Table.find?_erase, if_pos rfl, hopen]
      rfl
    · rw [Table.find?_erase, if_neg hpair]

theorem Exact.push (h : r.Exact ps) (p : Packet) : (r.push p).1.Exact (ps ++ [p]) := by
  by_cases hclass : p.packetClass = .event
  · obtain ⟨sub, hkind⟩ := exists_kind_of_event hclass
    exact h.push_event hkind
  · rw [push_of_not_event hclass]
    refine ⟨h.wordLimit, h.keys, fun pair => ?_⟩
    rw [openEvent_snoc_of_not (by simp [isEventOf, hclass])]
    exact h.runs pair

theorem exact_after (ps : List Packet) : ((initial none).after ps).Exact ps := by
  induction ps using List.reverseRecOn with
  | nil => exact exact_initial
  | append_singleton ps p ih =>
    rw [after_snoc]
    exact ih.push p

/-- There is a run for each pair that has an event that goes on. -/
theorem Exact.mem_keys_iff (h : r.Exact ps) (pair : Address × Address) :
    pair ∈ r.runs.keys ↔ ∃ p ∈ (eventsOf pair ps).getLast?, p.continues = true := by
  rw [Table.mem_keys_iff, h.runs, ← openEvent_ne_nil_iff, EventRun.ofPackets?]
  by_cases hnil : openEvent pair ps = [] <;> simp [hnil]

theorem Exact.pendingRuns (h : r.Exact ps) :
    r.pendingRuns = {pair | ∃ p ∈ (eventsOf pair ps).getLast?, p.continues = true}.ncard := by
  have hkeys : {pair | ∃ p ∈ (eventsOf pair ps).getLast?, p.continues = true} =
      (r.runs.keys.toFinset : Set (Address × Address)) := by
    ext pair
    rw [Set.mem_ofPred_eq, ← h.mem_keys_iff, Finset.mem_coe, List.mem_toFinset]
  rw [hkeys, Set.ncard_coe_finset, List.toFinset_card_of_nodup h.keys]
  exact (List.length_map Prod.fst).symm

/-! ## The events of a pair -/

/-- Packets that are no event packets complete no event and change nothing. -/
theorem events_filter_event (r : Reassembler) (ps : List Packet) :
    r.events (ps.filter fun p => p.packetClass = .event) = r.events ps := by
  induction ps generalizing r with
  | nil => rfl
  | cons p ps ih =>
    by_cases hclass : p.packetClass = .event
    · rw [List.filter_cons_of_pos (by simpa using hclass), events, events, ih]
    · have hsame := push_of_not_event (r := r) hclass
      rw [List.filter_cons_of_neg (by simpa using hclass), ih, events, completed?, hsame]
      rfl

/-- The events of a pair are those that the event packets of this pair complete by
themselves. -/
theorem events_eventsOf (ps : List Packet) (pair : Address × Address) :
    ((initial none).events ps).filter (fun e => (e.src, e.dest) = pair) =
      (initial none).events (eventsOf pair ps) := by
  have hpair : ((initial none).events ps).filter (fun e => (e.src, e.dest) = pair) =
      (initial none).events (ps.filter fun p => (p.src, p.dest) = pair) :=
    filter_events (fun other => decide (other = pair)) rfl (fun _ _ => rfl) ps
  rw [hpair, ← events_filter_event, List.filter_filter]
  rfl

end Reassembler

/-- Take a reassembler without a limit, any packets that it has been given, and a packet.

A packet that is no event packet is refused, and that is all.  An event packet that goes on
returns nothing.  Every other event packet returns the event of its source and destination
with its own subclass, whose payload is that of all event packets of this pair since the last
one that ended an event, in the order in which they came, and which counts these packets.  The
runs that are kept are as many as there are pairs whose latest event packet goes on.  And the
events of a pair are those that its own event packets would complete without all the others. -/
theorem reassembly_is_exact (ps : List Packet) (p : Packet) :
    let r := (Reassembler.initial none).after ps
    let event := openEvent (p.src, p.dest) ps ++ [p]
    (p.packetClass ≠ .event → r.push p = (r, .error (.notAnEvent p.packetClass))) ∧
      (∀ sub, p.kind = .event sub → (r.push p).2 = .ok (if sub.isContinuation then none else
        some { src := p.src, dest := p.dest, kind := sub, payload := payloads event,
               packets := event.length })) ∧
      r.pendingRuns = {pair | ∃ q ∈ (eventsOf pair ps).getLast?, q.continues = true}.ncard ∧
      ∀ pair, ((Reassembler.initial none).events ps).filter (fun e => (e.src, e.dest) = pair) =
        (Reassembler.initial none).events (eventsOf pair ps) := by
  intro r event
  have h : r.Exact ps := Reassembler.exact_after ps
  exact ⟨Reassembler.push_of_not_event, fun sub hkind => h.push_eq hkind, h.pendingRuns,
    Reassembler.events_eventsOf ps⟩

/-- The packets of two modules alternate.  One event goes on with an empty packet and ends with
a subclass of its own, the other is not complete. -/
example :
    let ps : List Packet :=
      [{ dest := 0x3ff, src := 1, kind := .event .eventContinuation, payload := [1, 2] },
        { dest := 0x3ff, src := 2, kind := .event .eventContinuation, payload := [7] },
        { dest := 0x3ff, src := 1, kind := .event .eventContinuation, payload := [] },
        { dest := 0x3ff, src := 2, kind := .plain 0, payload := [8] },
        { dest := 0x3ff, src := 1, kind := .event 5, payload := [3] }]
    (Reassembler.initial none).events ps =
        [{ src := 1, dest := 0x3ff, kind := 5, payload := [1, 2, 3], packets := 3 }] ∧
      ((Reassembler.initial none).after ps).pendingRuns = 1 := by
  decide

end ProbeNet
