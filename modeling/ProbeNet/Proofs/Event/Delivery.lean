import ProbeNet.Proofs.Event.Reassembly

/-!
# Events that are split and put together again

A reassembler without a limit gives every event back that was split, whatever
the packets of other modules between its packets are.

* `Reassembler.events` are the events that some packets complete.
* `filter_events` says that the events of some pairs depend on the packets of
  these pairs only.
* `push_fragments` follows the packets of one event, and `events_flatMap_split`
  those of many.
-/

namespace ProbeNet

open Packet

/-! ## The packets that an event is split into -/

/-- The packets of an event, each with at most `limit + 1` payload words. -/
def Event.split (limit : Nat) (e : Event) : List Packet :=
  fragments e.dest e.src e.kind limit e.payload

/-- Splitting the event gives as many packets as it says, and the last one ends it. -/
def Event.SplitBy (limit : Nat) (e : Event) : Prop :=
  e.kind.isContinuation = false ∧ e.packets = (e.split limit).length

theorem mem_fragments {dest src : Address} {final : Subclass} {limit : Nat}
    {payload : List Word} {p : Packet} (h : p ∈ fragments dest src final limit payload) :
    p.dest = dest ∧ p.src = src ∧ p.packetClass = .event := by
  fun_induction fragments dest src final limit payload with
  | case1 payload hfits =>
    rw [List.mem_singleton.mp h]
    exact ⟨rfl, rfl, rfl⟩
  | case2 payload hlong ih =>
    rcases List.mem_cons.mp h with rfl | h
    · exact ⟨rfl, rfl, rfl⟩
    · exact ih h

/-- No packet of an event is longer than the limit says. -/
theorem length_of_mem_fragments {dest src : Address} {final : Subclass} {limit : Nat}
    {payload : List Word} {p : Packet} (h : p ∈ fragments dest src final limit payload) :
    p.payload.length ≤ limit + 1 := by
  fun_induction fragments dest src final limit payload with
  | case1 payload hfits =>
    rw [List.mem_singleton.mp h]
    exact hfits
  | case2 payload hlong ih =>
    rcases List.mem_cons.mp h with rfl | h
    · exact List.length_take_le _ _
    · exact ih h

namespace Reassembler

variable {r r' : Reassembler} {p : Packet}

/-! ## The events of many packets -/

/-- The event that a packet completes. -/
def completed? (r : Reassembler) (p : Packet) : Option Event := (r.push p).2.toOption.join

/-- The events that packets complete. -/
def events (r : Reassembler) : List Packet → List Event
  | [] => []
  | p :: ps => (r.completed? p).toList ++ (r.push p).1.events ps

theorem after_cons (r : Reassembler) (p : Packet) (ps : List Packet) :
    r.after (p :: ps) = (r.push p).1.after ps := rfl

theorem events_append (r : Reassembler) (ps qs : List Packet) :
    r.events (ps ++ qs) = r.events ps ++ (r.after ps).events qs := by
  induction ps generalizing r with
  | nil => rfl
  | cons p ps ih => rw [List.cons_append, events, ih, events, after_cons, List.append_assoc]

theorem events_prefix (r : Reassembler) {ps qs : List Packet} (h : ps <+: qs) :
    r.events ps <+: r.events qs := by
  obtain ⟨rest, rfl⟩ := h
  rw [events_append]
  exact List.prefix_append _ _

/-! ## The events of some pairs -/

/-- What a packet does depends on the event of its pair only. -/
theorem push_congr (hlimit : r.wordLimit = r'.wordLimit)
    (hpending : r.pending (p.src, p.dest) = r'.pending (p.src, p.dest)) :
    (r.push p).2 = (r'.push p).2 ∧
      (r.push p).1.pending (p.src, p.dest) = (r'.push p).1.pending (p.src, p.dest) := by
  obtain ⟨dest, src, kind, payload⟩ := p
  cases kind with
  | event sub =>
    have hrun : r.extend (src, dest) payload = r'.extend (src, dest) payload := by
      rw [extend_eq, extend_eq, hpending]
    have hexceeds : r.exceeds (r'.extend (src, dest) payload).payload.length =
        r'.exceeds (r'.extend (src, dest) payload).payload.length := by
      rw [exceeds, exceeds, hlimit]
    simp only [push, hrun, hexceeds, hlimit]
    split
    · exact ⟨rfl, by simp [pending, Table.find?_erase]⟩
    · split
      · exact ⟨rfl, by simp [pending, Table.find?_insert]⟩
      · exact ⟨rfl, by simp [pending, Table.find?_erase]⟩
  | _ => exact ⟨rfl, hpending⟩

/-- The event that a packet completes is one of its pair. -/
theorem pair_of_completed {e : Event} (h : r.completed? p = some e) :
    (e.src, e.dest) = (p.src, p.dest) := by
  unfold completed? at h
  by_cases hclass : p.packetClass = .event
  · obtain ⟨sub, hkind⟩ := exists_kind_of_event hclass
    rcases r.push_cases hkind with ⟨-, hout, -⟩ | ⟨-, -, hout, -⟩ | ⟨-, -, hout, -⟩
    · rw [hout] at h
      cases h
    · rw [hout] at h
      cases h
    · rw [hout] at h
      rw [← Option.some.inj h]
  · rw [push_of_not_event hclass] at h
    cases h

/-- The events of some pairs are those that the packets of these pairs complete. -/
theorem filter_events (K : Address × Address → Bool) (hlimit : r.wordLimit = r'.wordLimit)
    (hpending : ∀ pair, K pair = true → r.pending pair = r'.pending pair) (ps : List Packet) :
    (r.events ps).filter (fun e => K (e.src, e.dest)) =
      r'.events (ps.filter fun p => K (p.src, p.dest)) := by
  induction ps generalizing r r' with
  | nil => rfl
  | cons p ps ih =>
    have hother : ∀ {r : Reassembler} {pair : Address × Address}, (p.src, p.dest) ≠ pair →
        (r.push p).1.pending pair = r.pending pair := by
      intro r pair hne
      exact pending_push_of_not (by simp [isEventOf, hne])
    cases hK : K (p.src, p.dest) with
    | true =>
      obtain ⟨hout, hnext⟩ := push_congr hlimit (hpending _ hK)
      have hrest : ∀ pair, K pair = true →
          (r.push p).1.pending pair = (r'.push p).1.pending pair := by
        intro pair hpair
        by_cases hown : (p.src, p.dest) = pair
        · rw [← hown]
          exact hnext
        · rw [hother hown, hother hown]
          exact hpending pair hpair
      have hsame : r.completed? p = r'.completed? p := congrArg (·.toOption.join) hout
      have hkept : (r'.completed? p).toList.filter (fun e => K (e.src, e.dest)) =
          (r'.completed? p).toList := by
        refine List.filter_eq_self.mpr fun e he => ?_
        rw [pair_of_completed (Option.mem_toList.mp he)]
        exact hK
      rw [List.filter_cons_of_pos (p := fun p : Packet => K (p.src, p.dest)) hK, events, events, List.filter_append, hsame, hkept,
        ih (by rw [wordLimit_push, wordLimit_push, hlimit]) hrest]
    | false =>
      have hrest : ∀ pair, K pair = true → (r.push p).1.pending pair = r'.pending pair := by
        intro pair hpair
        have hne : (p.src, p.dest) ≠ pair := by
          rintro rfl
          cases hK.symm.trans hpair
        rw [hother hne]
        exact hpending pair hpair
      have hdropped : (r.completed? p).toList.filter (fun e => K (e.src, e.dest)) = [] := by
        refine List.filter_eq_nil_iff.mpr fun e he => ?_
        rw [pair_of_completed (Option.mem_toList.mp he), hK]
        exact Bool.false_ne_true
      rw [List.filter_cons_of_neg (by simp [hK]), events, List.filter_append, hdropped,
        List.nil_append, ih (by rw [wordLimit_push, hlimit]) hrest]

/-! ## The packets of an event -/

theorem exceeds_of_le {words words' : Nat} (h : r.exceeds words = false) (hle : words' ≤ words) :
    r.exceeds words' = false := by
  unfold exceeds at h ⊢
  cases hlimit : r.wordLimit with
  | none => rfl
  | some limit =>
    simp only [hlimit, Option.any_some, decide_eq_false_iff_not, Nat.not_lt] at h ⊢
    exact Nat.le_trans hle h

/-- Packets of other pairs leave the event of a pair alone. -/
theorem pending_after_of_not {pair : Address × Address} {ps : List Packet}
    (h : ∀ p ∈ ps, p.isEventOf pair = false) : (r.after ps).pending pair = r.pending pair := by
  induction ps generalizing r with
  | nil => rfl
  | cons p ps ih =>
    rw [after_cons, ih fun q hq => h q (by simp [hq]), pending_push_of_not (h p (by simp))]

section Fragments

variable {dest src : Address} {final : Subclass} {limit : Nat} {payload : List Word}

/-- The packets that an event is split into complete this event, behind what there is of it
already. -/
theorem push_fragments (hfinal : final.isContinuation = false)
    (hroom : r.exceeds ((r.pending (src, dest)).payload ++ payload).length = false) :
    r.events (fragments dest src final limit payload) =
        [⟨src, dest, final, (r.pending (src, dest)).payload ++ payload,
          (r.pending (src, dest)).packets + (fragments dest src final limit payload).length⟩] ∧
      (r.after (fragments dest src final limit payload)).pending (src, dest) = {} := by
  fun_induction fragments dest src final limit payload generalizing r with
  | case1 payload hfits =>
    rcases r.push_cases (p := ⟨dest, src, .event final, payload⟩) rfl with
      ⟨hlong, -⟩ | ⟨-, hgoes, -⟩ | ⟨-, -, hout, hnext⟩
    · cases hlong.symm.trans hroom
    · cases hgoes.symm.trans hfinal
    · exact ⟨by simp [events, completed?, hout, Except.toOption, extend_eq], hnext⟩
  | case2 payload hlong ih =>
    let first : Packet := ⟨dest, src, .event .eventContinuation, payload.take (limit + 1)⟩
    have hfirst : r.exceeds (r.extend (src, dest) first.payload).payload.length = false := by
      refine exceeds_of_le hroom ?_
      rw [extend_eq, List.length_append, List.length_append, List.length_take]
      omega
    rcases r.push_cases (p := first) rfl with ⟨hlong, -⟩ | ⟨-, -, hout, hnext⟩ | ⟨-, hends, -⟩
    · cases hlong.symm.trans hfirst
    · have hpending : (r.push first).1.pending (src, dest) =
          { payload := (r.pending (src, dest)).payload ++ payload.take (limit + 1)
            packets := (r.pending (src, dest)).packets + 1 } := hnext
      have hwhole : ((r.push first).1.pending (src, dest)).payload ++ payload.drop (limit + 1) =
          (r.pending (src, dest)).payload ++ payload := by
        rw [hpending, List.append_assoc, List.take_append_drop]
      obtain ⟨hevents, hafter⟩ := ih (r := (r.push first).1) (by
        rw [hwhole, exceeds, wordLimit_push]
        exact hroom)
      refine ⟨?_, hafter⟩
      rw [events, completed?, hout, hevents, hwhole, hpending]
      simp [Except.toOption, Nat.add_assoc, Nat.add_comm 1]
    · exact absurd hends (by decide)

end Fragments

/-- Events that were split are put together again. -/
theorem events_flatMap_split {limit : Nat} (hlimit : r.wordLimit = none)
    (hpending : ∀ pair, r.pending pair = {}) {es : List Event} (hes : ∀ e ∈ es, e.SplitBy limit) :
    r.events (es.flatMap (Event.split limit)) = es := by
  induction es generalizing r with
  | nil => rfl
  | cons e es ih =>
    obtain ⟨hfinal, hpackets⟩ := hes e (by simp)
    have hroom : r.exceeds ((r.pending (e.src, e.dest)).payload ++ e.payload).length = false := by
      rw [exceeds, hlimit]
      rfl
    have hown : r.events (e.split limit) =
          [⟨e.src, e.dest, e.kind, (r.pending (e.src, e.dest)).payload ++ e.payload,
            (r.pending (e.src, e.dest)).packets + (e.split limit).length⟩] ∧
        (r.after (e.split limit)).pending (e.src, e.dest) = {} := push_fragments hfinal hroom
    have hrest : ∀ pair, (r.after (e.split limit)).pending pair = {} := by
      intro pair
      by_cases hpair : pair = (e.src, e.dest)
      · rw [hpair]
        exact hown.2
      · rw [pending_after_of_not fun p hp => ?_, hpending pair]
        obtain ⟨hdest, hsrc, -⟩ := mem_fragments hp
        simp [isEventOf, hdest, hsrc, Ne.symm hpair]
    rw [List.flatMap_cons, events_append, ih ((wordLimit_after _ _).trans hlimit) hrest
      fun e' he' => hes e' (by simp [he'])]
    have hevents : r.events (e.split limit) = [e] := by
      rw [hown.1, hpending, List.nil_append, Nat.zero_add]
      exact congrArg (fun n => [Event.mk e.src e.dest e.kind e.payload n]) hpackets.symm
    rw [hevents, List.singleton_append]

end Reassembler

end ProbeNet
