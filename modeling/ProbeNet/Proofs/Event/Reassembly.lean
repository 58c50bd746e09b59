import Mathlib.Data.List.DropRight
import Mathlib.Data.List.Induction
import ProbeNet.Event

/-!
# What a reassembler puts together

A reassembler keeps for each pair of source and destination the packets of the event
that has begun and not ended.  If there is a limit to the words of an event, a packet
that goes beyond it is forgotten together with those before it, and the packets
behind it are taken for a new event.

* `Packet.openEvent` is what a list of packets has of the event of a pair that has not
  ended.
* `Reassembler.push_cases` is all that an event packet can do.  What it does to the
  event of its pair is seen through `Reassembler.pending`.
* `Reassembler.Holds` says which part of an event a reassembler with a limit still has,
  and `returned_event_whole_iff_fits` when an event that is returned is whole.
-/

namespace ProbeNet

/-! ## The packets of an event -/

namespace Packet

/-- Whether a packet belongs to an event that goes on behind it. -/
def continues (p : Packet) : Bool :=
  match p.kind with
  | .event sub => sub.isContinuation
  | _ => false

/-- Whether a packet is an event packet of a pair of source and destination. -/
def isEventOf (pair : Address × Address) (p : Packet) : Bool :=
  p.packetClass = .event && (p.src, p.dest) = pair

/-- The event packets of a pair of source and destination. -/
def eventsOf (pair : Address × Address) (ps : List Packet) : List Packet :=
  ps.filter (isEventOf pair)

/-- The event packets of a pair since the last one that ended an event. -/
def openEvent (pair : Address × Address) (ps : List Packet) : List Packet :=
  (eventsOf pair ps).rtakeWhile continues

/-- The payloads of some packets, joined. -/
def payloads (ps : List Packet) : List Word := ps.flatMap payload

@[simp] theorem payloads_append (ps qs : List Packet) :
    payloads (ps ++ qs) = payloads ps ++ payloads qs := List.flatMap_append

@[simp] theorem payloads_singleton (p : Packet) : payloads [p] = p.payload := by
  simp [payloads]

variable {pair : Address × Address} {ps : List Packet} {p : Packet}

theorem exists_kind_of_event (h : p.packetClass = .event) : ∃ sub, p.kind = .event sub := by
  obtain ⟨dest, src, kind, payload⟩ := p
  cases kind with
  | event sub => exact ⟨sub, rfl⟩
  | _ => cases h

theorem eventsOf_snoc_of_not (h : isEventOf pair p = false) :
    eventsOf pair (ps ++ [p]) = eventsOf pair ps := by
  simp [eventsOf, h]

theorem eventsOf_snoc (h : isEventOf pair p = true) :
    eventsOf pair (ps ++ [p]) = eventsOf pair ps ++ [p] := by
  simp [eventsOf, h]

theorem openEvent_snoc_of_not (h : isEventOf pair p = false) :
    openEvent pair (ps ++ [p]) = openEvent pair ps := by
  rw [openEvent, eventsOf_snoc_of_not h, openEvent]

theorem openEvent_snoc (h : isEventOf pair p = true) :
    openEvent pair (ps ++ [p]) = if p.continues then openEvent pair ps ++ [p] else [] := by
  rw [openEvent, eventsOf_snoc h]
  cases hcontinues : p.continues with
  | true => exact List.rtakeWhile_concat_pos _ _ _ hcontinues
  | false => exact List.rtakeWhile_concat_neg _ _ _ (by simp [hcontinues])

end Packet

namespace Reassembler

open Packet

/-! ## One packet -/

/-- What a reassembler has of the event of a pair. -/
def pending (r : Reassembler) (pair : Address × Address) : EventRun := (r.runs.find? pair).getD {}

theorem extend_eq (r : Reassembler) (pair : Address × Address) (payload : List Word) :
    r.extend pair payload =
      { payload := (r.pending pair).payload ++ payload
        packets := (r.pending pair).packets + 1 } := rfl

variable {r : Reassembler} {p : Packet} {pair : Address × Address}

/-- A packet that is no event packet is refused, and that is all. -/
theorem push_of_not_event (h : p.packetClass ≠ .event) :
    r.push p = (r, .error (.notAnEvent p.packetClass)) := by
  obtain ⟨dest, src, kind, payload⟩ := p
  cases kind with
  | event sub => exact absurd rfl h
  | _ => rfl

/-- A packet only matters for the event of its own pair. -/
theorem pending_push_of_not (h : p.isEventOf pair = false) :
    (r.push p).1.pending pair = r.pending pair := by
  obtain ⟨dest, src, kind, payload⟩ := p
  cases kind with
  | event sub =>
    have hne : (src, dest) ≠ pair := by
      simpa [isEventOf, packetClass, PacketKind.packetClass] using h
    simp only [push, pending]
    split
    · rw [Table.find?_erase, if_neg hne]
    · split
      · rw [Table.find?_insert, if_neg hne]
      · rw [Table.find?_erase, if_neg hne]
  | _ => rfl

/-- An event packet makes the event of its pair too long, or goes on with it, or ends it. -/
theorem push_cases (r : Reassembler) {sub : Subclass} (hkind : p.kind = .event sub) :
    let run := r.extend (p.src, p.dest) p.payload
    (r.exceeds run.payload.length = true ∧
      (r.push p).2 = .error (.runTooLong p.src p.dest (r.wordLimit.getD 0)) ∧
      (r.push p).1.pending (p.src, p.dest) = {}) ∨
    (r.exceeds run.payload.length = false ∧ sub.isContinuation = true ∧ (r.push p).2 = .ok none ∧
      (r.push p).1.pending (p.src, p.dest) = run) ∨
    (r.exceeds run.payload.length = false ∧ sub.isContinuation = false ∧
      (r.push p).2 = .ok (some ⟨p.src, p.dest, sub, run.payload, run.packets⟩) ∧
      (r.push p).1.pending (p.src, p.dest) = {}) := by
  intro run
  have hrun : r.extend (p.src, p.dest) p.payload = run := rfl
  simp only [push, hkind, hrun]
  cases hlong : r.exceeds run.payload.length with
  | true => exact Or.inl ⟨rfl, rfl, by simp [pending, Table.find?_erase]⟩
  | false =>
    refine Or.inr ?_
    cases hgoes : sub.isContinuation with
    | true => exact Or.inl ⟨rfl, rfl, rfl, by simp [pending, Table.find?_insert]⟩
    | false => exact Or.inr ⟨rfl, rfl, rfl, by simp [pending, Table.find?_erase]⟩

theorem wordLimit_push (r : Reassembler) (p : Packet) : (r.push p).1.wordLimit = r.wordLimit := by
  obtain ⟨dest, src, kind, payload⟩ := p
  cases kind with
  | event sub =>
    simp only [push]
    split
    · rfl
    · split <;> rfl
  | _ => rfl

/-! ## Many packets -/

/-- The reassembler after some packets. -/
def after (r : Reassembler) (ps : List Packet) : Reassembler :=
  ps.foldl (fun r p => (r.push p).1) r

theorem after_snoc (r : Reassembler) (ps : List Packet) (p : Packet) :
    r.after (ps ++ [p]) = ((r.after ps).push p).1 := by
  simp [after]

theorem wordLimit_after (r : Reassembler) (ps : List Packet) :
    (r.after ps).wordLimit = r.wordLimit := by
  induction ps using List.reverseRecOn with
  | nil => rfl
  | append_singleton ps p ih => rw [after_snoc, wordLimit_push, ih]

/-! ## Events with a limit -/

/-- Of the event of a pair that has not ended, a reassembler that allows `limit` words
still has the packets `kept`.  Those in front of them went beyond the limit, if there
are any, and the last of them was refused. -/
structure Holds (limit : Nat) (ps : List Packet) (pair : Address × Address)
    (lost kept : List Packet) : Prop where
  split : openEvent pair ps = lost ++ kept
  pending : ((initial (some limit)).after ps).pending pair =
    { payload := payloads kept, packets := kept.length }
  lost : lost = [] ∨ limit < (payloads lost).length ∧
    ∃ before q rest, ps = before ++ q :: rest ∧ (q.src, q.dest) = pair ∧
      (((initial (some limit)).after before).push q).2 =
        .error (.runTooLong q.src q.dest limit) ∧ eventsOf pair rest = kept

variable {limit : Nat} {ps : List Packet} {lost kept : List Packet}

theorem holds_nil (limit : Nat) (pair : Address × Address) : Holds limit [] pair [] [] :=
  ⟨rfl, rfl, Or.inl rfl⟩

/-- A packet of another pair changes nothing. -/
theorem Holds.snoc_other (h : Holds limit ps pair lost kept) (hp : p.isEventOf pair = false) :
    Holds limit (ps ++ [p]) pair lost kept := by
  refine ⟨?_, ?_, ?_⟩
  · rw [openEvent_snoc_of_not hp, h.split]
  · rw [after_snoc, pending_push_of_not hp, h.pending]
  · refine h.lost.imp_right fun ⟨hlong, before, q, rest, hps, hq, hrefused, hrest⟩ => ?_
    refine ⟨hlong, before, q, rest ++ [p], by simp [hps], hq, hrefused, ?_⟩
    rw [eventsOf_snoc_of_not hp, hrest]

/-- A packet of the pair makes the kept packets too long, or goes on with them, or ends
the event. -/
theorem Holds.push (h : Holds limit ps (p.src, p.dest) lost kept) {sub : Subclass}
    (hkind : p.kind = .event sub) :
    let r := (initial (some limit)).after ps
    let run := payloads (kept ++ [p])
    (limit < run.length ∧ (r.push p).2 = .error (.runTooLong p.src p.dest limit) ∧
      (r.push p).1.pending (p.src, p.dest) = {}) ∨
    (run.length ≤ limit ∧ sub.isContinuation = true ∧ (r.push p).2 = .ok none ∧
      (r.push p).1.pending (p.src, p.dest) = { payload := run, packets := kept.length + 1 }) ∨
    (run.length ≤ limit ∧ sub.isContinuation = false ∧
      (r.push p).2 = .ok (some ⟨p.src, p.dest, sub, run, kept.length + 1⟩) ∧
      (r.push p).1.pending (p.src, p.dest) = {}) := by
  intro r run
  have hrun : r.extend (p.src, p.dest) p.payload =
      { payload := run, packets := kept.length + 1 } := by
    rw [extend_eq, h.pending, ← payloads_singleton, ← payloads_append]
  have hlimit : r.wordLimit = some limit := wordLimit_after _ ps
  have hcases := r.push_cases hkind
  simp only [hrun, exceeds, hlimit, Option.any_some, decide_eq_true_eq, decide_eq_false_iff_not,
    Nat.not_lt, Option.getD_some] at hcases
  exact hcases

/-- A packet of the pair is forgotten with all before it, or it goes on with the event, or
ends it. -/
theorem Holds.snoc (h : Holds limit ps pair lost kept) (hp : p.isEventOf pair = true) :
    ∃ lost kept, Holds limit (ps ++ [p]) pair lost kept := by
  obtain ⟨hclass, rfl⟩ : p.packetClass = .event ∧ (p.src, p.dest) = pair := by
    simpa [isEventOf] using hp
  obtain ⟨sub, hkind⟩ := exists_kind_of_event hclass
  have hopen : openEvent (p.src, p.dest) (ps ++ [p]) =
      if p.continues then lost ++ kept ++ [p] else [] := by
    rw [openEvent_snoc hp, h.split]
  rw [show p.continues = sub.isContinuation by rw [continues, hkind]] at hopen
  rcases h.push hkind with
    ⟨hlong, hrefused, hnext⟩ | ⟨-, hgoes, -, hnext⟩ | ⟨-, hends, -, hnext⟩
  · cases hgoes : sub.isContinuation with
    | true =>
      rw [hgoes, if_pos rfl] at hopen
      refine ⟨lost ++ kept ++ [p], [], by simpa using hopen, by rw [after_snoc, hnext]; rfl, ?_⟩
      refine Or.inr ⟨?_, ps, p, [], rfl, rfl, hrefused, rfl⟩
      simp only [payloads_append, List.length_append] at hlong ⊢
      omega
    | false =>
      rw [hgoes] at hopen
      exact ⟨[], [], by simpa using hopen, by rw [after_snoc, hnext]; rfl, Or.inl rfl⟩
  · rw [hgoes, if_pos rfl] at hopen
    refine ⟨lost, kept ++ [p], by simpa using hopen, ?_, ?_⟩
    · rw [after_snoc, hnext, List.length_append, List.length_singleton]
    · refine h.lost.imp_right fun ⟨hlong, before, q, rest, hps, hq, hrefused, hrest⟩ => ?_
      refine ⟨hlong, before, q, rest ++ [p], by simp [hps], hq, hrefused, ?_⟩
      rw [eventsOf_snoc hp, hrest]
  · rw [hends] at hopen
    exact ⟨[], [], by simpa using hopen, by rw [after_snoc, hnext]; rfl, Or.inl rfl⟩

theorem exists_holds (limit : Nat) (ps : List Packet) (pair : Address × Address) :
    ∃ lost kept, Holds limit ps pair lost kept := by
  induction ps using List.reverseRecOn with
  | nil => exact ⟨[], [], holds_nil limit pair⟩
  | append_singleton ps p ih =>
    obtain ⟨lost, kept, h⟩ := ih
    cases hp : p.isEventOf pair with
    | true => exact h.snoc hp
    | false => exact ⟨lost, kept, h.snoc_other hp⟩

end Reassembler

open Reassembler Packet

/-- Take a reassembler that allows `limit` words for an event, any packets that it has
been given, and a packet.  An event that the packet completes is whole, with the payloads
of all packets of its pair since the last one that ended an event, if and only if it fits
in the limit; and one that fits is returned.  One that does not fit, and is returned all the
same, is the tail behind a packet that was refused as too long. -/
theorem returned_event_whole_iff_fits (limit : Nat) (ps : List Packet) (p : Packet) :
    let pair := (p.src, p.dest)
    let outcome := (((Reassembler.initial (some limit)).after ps).push p).2
    let whole := Packet.payloads (Packet.openEvent pair ps ++ [p])
    (∀ e, outcome = .ok (some e) →
      e.src = p.src ∧ e.dest = p.dest ∧ p.kind = .event e.kind ∧ e.kind.isContinuation = false ∧
        (e.payload = whole ↔ whole.length ≤ limit) ∧
        (limit < whole.length →
          ∃ before q rest, ps = before ++ q :: rest ∧ (q.src, q.dest) = pair ∧
            (((Reassembler.initial (some limit)).after before).push q).2 =
              .error (.runTooLong q.src q.dest limit) ∧
            e.payload = Packet.payloads (Packet.eventsOf pair rest ++ [p]))) ∧
      (∀ kind, p.kind = .event kind → kind.isContinuation = false → whole.length ≤ limit →
        outcome = .ok (some ⟨p.src, p.dest, kind, whole, (Packet.openEvent pair ps).length + 1⟩)) := by
  intro pair outcome whole
  obtain ⟨lost, kept, h⟩ := exists_holds limit ps pair
  have hwhole : whole = payloads lost ++ payloads (kept ++ [p]) := by
    rw [← payloads_append, ← List.append_assoc, ← h.split]
  have hlength : whole.length = (payloads lost).length + (payloads (kept ++ [p])).length := by
    rw [hwhole, List.length_append]
  refine ⟨fun e he => ?_, fun kind hkind hends hfits => ?_⟩
  · obtain ⟨kind, hkind⟩ : ∃ kind, p.kind = .event kind := by
      refine exists_kind_of_event (Decidable.byContradiction fun hclass => ?_)
      have hrefused : outcome = .error (.notAnEvent p.packetClass) :=
        congrArg Prod.snd (push_of_not_event hclass)
      cases hrefused.symm.trans he
    rcases h.push hkind with ⟨-, hout, -⟩ | ⟨-, -, hout, -⟩ | ⟨hshort, hends, hout, -⟩
    · cases hout.symm.trans he
    · cases hout.symm.trans he
    · obtain rfl : _ = e := Option.some.inj (Except.ok.inj (hout.symm.trans he))
      refine ⟨rfl, rfl, hkind, hends, ⟨fun heq => ?_, fun hfits => ?_⟩, fun hlong => ?_⟩
      · rw [← heq]
        exact hshort
      · rcases h.lost with rfl | ⟨hlong, -⟩
        · exact hwhole.symm
        · omega
      · rcases h.lost with rfl | ⟨-, before, q, rest, hps, hq, hrefused, hrest⟩
        · rw [hwhole] at hlong
          exact absurd hshort (Nat.not_le.mpr hlong)
        · refine ⟨before, q, rest, hps, hq, hrefused, ?_⟩
          rw [hrest]
  · obtain rfl : lost = [] := by
      rcases h.lost with hnil | ⟨hlong, -⟩
      · exact hnil
      · omega
    have hall : openEvent pair ps = kept := h.split
    rw [show whole = payloads (kept ++ [p]) from hwhole] at hfits ⊢
    rw [hall]
    rcases h.push hkind with ⟨hlong, -⟩ | ⟨-, hgoes, -⟩ | ⟨-, -, hout, -⟩
    · exact absurd hfits (Nat.not_le.mpr hlong)
    · cases hends.symm.trans hgoes
    · exact hout

/-- Three packets of one event of six words, when four are allowed: the second is refused, and
the third is returned as an event of its own. -/
theorem returned_event_is_tail :
    let ps : List Packet :=
      [{ dest := 0x3ff, src := 1, kind := .event .eventContinuation, payload := [1, 2, 3] },
        { dest := 0x3ff, src := 1, kind := .event .eventContinuation, payload := [4, 5] }]
    let p : Packet := { dest := 0x3ff, src := 1, kind := .event .eventLast, payload := [6] }
    (((Reassembler.initial (some 4)).after ps).push p).2 =
        .ok (some { src := 1, dest := 0x3ff, kind := .eventLast, payload := [6], packets := 1 }) ∧
      Packet.payloads (Packet.openEvent (1, 0x3ff) ps ++ [p]) = [1, 2, 3, 4, 5, 6] := by
  decide

end ProbeNet
