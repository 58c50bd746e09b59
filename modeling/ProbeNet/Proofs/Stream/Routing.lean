import ProbeNet.Flow.Demux
import ProbeNet.Proofs.Stream.Framing

/-!
# What a demultiplexer sends each way

A stream that goes through a demultiplexer splits into the runs of register
packets and the other runs of three words or more.  `Demux.routed` is the part
of a stream that goes one way.

* `runs_routed` and `requests_routed`: no run is torn, and every
  register request is among those that go to the engine.
* `Demux.Carries` says where the flits are that a demultiplexer has taken, and
  `Carries.tick` keeps it over one step.
-/

namespace ProbeNet

namespace Demux

/-- The way of a run, once its third word is there. -/
def routeOf : List Flit → Option Route
  | _ :: _ :: flags :: _ => some (Route.ofClass (PacketKind.classOfFlags flags.word))
  | _ => none

/-- The complete runs of a stream that go one way. -/
def routedRuns (route : Route) (fs : List Flit) : List (List Flit) :=
  (Flit.runs fs).filter fun r => routeOf r = some route

/-- The part of a stream that goes one way, the open run included. -/
def routed (route : Route) (fs : List Flit) : List Flit :=
  (routedRuns route fs).flatten ++
    if routeOf (Flit.openRun fs) = some route then Flit.openRun fs else []

/-! ## The split of a stream -/

theorem routeOf_append {xs : List Flit} {route : Route} (h : routeOf xs = some route)
    (ys : List Flit) : routeOf (xs ++ ys) = some route := by
  unfold routeOf at h
  split at h
  · exact h
  · cases h

theorem routeOf_eq_none_iff {xs : List Flit} : routeOf xs = none ↔ xs.length < 3 := by
  unfold routeOf
  split
  · simp
  · rename_i hshort
    refine ⟨fun _ => ?_, fun _ => rfl⟩
    rcases xs with _ | ⟨a, _ | ⟨b, _ | ⟨c, rest⟩⟩⟩
    · simp
    · simp
    · simp
    · exact absurd rfl (hshort a b c rest)

theorem isRun_of_mem_routedRuns {route : Route} {fs r : List Flit} (h : r ∈ routedRuns route fs) :
    Flit.IsRun r := Flit.isRun_of_mem_runs (List.mem_filter.mp h).1

/-- The runs that go one way are runs of the part that goes this way. -/
theorem runs_routed (route : Route) (fs : List Flit) :
    Flit.runs (routed route fs) = routedRuns route fs := by
  have hopen : ∀ f ∈ if routeOf (Flit.openRun fs) = some route then Flit.openRun fs else [],
      f.last = false := by
    split
    · exact fun f hf => Flit.last_of_mem_openRun hf
    · simp
  rw [routed, Flit.runs_flatten_append fun r hr => isRun_of_mem_routedRuns hr,
    Flit.runs_of_unmarked hopen, List.append_nil]

/-- A further flit belongs to the run that it ends or goes on. -/
theorem routed_snoc (route : Route) (fs : List Flit) (f : Flit) :
    routed route (fs ++ [f]) = (routedRuns route fs).flatten ++
      if routeOf (Flit.openRun fs ++ [f]) = some route then Flit.openRun fs ++ [f] else [] := by
  unfold routed routedRuns
  rw [Flit.runs_snoc, Flit.openRun_snoc]
  cases hlast : f.last with
  | false => simp
  | true =>
    by_cases hroute : routeOf (Flit.openRun fs ++ [f]) = some route <;>
      simp [hroute, List.filter_append]

/-- Once a run has a way, its flits go there and nowhere else. -/
theorem routed_snoc_of_routeOf {fs : List Flit} {f : Flit} {route : Route}
    (h : routeOf (Flit.openRun fs) = some route) (way : Route) :
    routed way (fs ++ [f]) = routed way fs ++ if route = way then [f] else [] := by
  rw [routed_snoc, routeOf_append h, routed, h, List.append_assoc]
  by_cases hway : route = way <;> simp [hway]

/-- A run without a way goes nowhere yet. -/
theorem routed_of_short {fs : List Flit} (h : (Flit.openRun fs).length < 3) (way : Route) :
    routed way fs = (routedRuns way fs).flatten := by
  rw [routed, routeOf_eq_none_iff.mpr h]
  simp

/-- A run that is a packet goes the way of its class. -/
theorem routeOf_of_ofFlits {r : List Flit} {p : Packet} (h : Packet.ofFlits r = .ok p) :
    routeOf r = some (Route.ofClass p.packetClass) := by
  obtain ⟨dest, src, flags, rest, rfl, -, hclass, -⟩ := Packet.cons_of_ofFlits h
  rw [hclass]
  rfl

/-- A run that goes past the engine is a packet: its class leaves no subclass undefined. -/
theorem exists_packet_of_bypass {r : List Flit} (h : routeOf r = some .bypass) :
    ∃ p, Packet.ofFlits r = .ok p := by
  rcases r with _ | ⟨dest, _ | ⟨src, _ | ⟨flags, rest⟩⟩⟩
  · cases h
  · cases h
  · cases h
  · obtain ⟨kind, hkind⟩ : ∃ kind, PacketKind.ofFlags flags.word = .ok kind := by
      rw [PacketKind.ofFlags]
      cases hclass : PacketKind.classOfFlags flags.word with
      | register =>
        rw [routeOf, hclass] at h
        cases h
      | _ => exact ⟨_, rfl⟩
    refine ⟨⟨.ofWord dest.word, .ofWord src.word, kind, rest.map Flit.word⟩, ?_⟩
    simp only [Packet.ofFlits, List.map_cons, Packet.decode, bind, Except.bind, hkind]

/-- The register requests of a stream all go to the engine. -/
theorem requests_routed (fs : List Flit) :
    (Packet.ofStream (routed .register fs)).filter Packet.isRequest =
      (Packet.ofStream fs).filter Packet.isRequest := by
  rw [Packet.ofStream, Packet.ofStream, runs_routed, routedRuns, List.filter_filterMap,
    List.filter_filterMap, List.filterMap_filter]
  congr 1
  funext r
  cases hp : Packet.ofFlits r with
  | error e => simp [Except.toOption]
  | ok p =>
    cases hrequest : p.isRequest with
    | false => simp [Except.toOption, Option.filter, hrequest]
    | true =>
      have hroute : routeOf r = some .register := by
        rw [routeOf_of_ofFlits hp, Packet.packetClass_of_isRequest hrequest]
        rfl
      simp [Except.toOption, Option.filter, hrequest, hroute]

/-! ## Where the flits are -/

/-- The demultiplexer has taken the flits `taken` and sent the flits `out`.
What it has not sent is the open run, or the pending part of the run whose way
it has chosen. -/
def Carries (d : Demux) (taken : List Flit) (out : Route → List Flit) : Prop :=
  match d.phase with
  | .header held => held = Flit.openRun taken ∧ held.length < 3 ∧ ∀ way, routed way taken = out way
  | .forward route pending tailSeen =>
    routed route taken = out route ++ pending ∧ (∀ way, way ≠ route → routed way taken = out way) ∧
      if tailSeen then Flit.openRun taken = [] ∧ Flit.IsRun pending
      else routeOf (Flit.openRun taken) = some route ∧ ∀ f ∈ pending, f.last = false

/-- A flit that comes in while the header is not complete completes it, or ends a
packet that is too short, or is held. -/
theorem tick_header_cases {d : Demux} {held : List Flit} (hphase : d.phase = .header held)
    (hshort : held.length < 3) (f : Flit) (ready : Route → Bool) :
    (∃ dest src, held = [dest, src] ∧ d.tick (some f) ready =
      d.present (Route.ofClass (PacketKind.classOfFlags f.word)) [dest, src, f] f.last true ready) ∨
    ((held ++ [f]).length < 3 ∧ d.tick (some f) ready =
      { demux := { d with
          phase := .header (if f.last then [] else held ++ [f])
          runts := d.runts + f.last.toNat }
        taken := true, offered := none, sent := false }) := by
  rcases held with _ | ⟨x, _ | ⟨y, _ | ⟨z, rest⟩⟩⟩
  · refine Or.inr ⟨by simp, ?_⟩
    cases hlast : f.last <;> simp [tick, hphase, hlast]
  · refine Or.inr ⟨by simp, ?_⟩
    cases hlast : f.last <;> simp [tick, hphase, hlast]
  · refine Or.inl ⟨x, y, rfl, ?_⟩
    simp [tick, hphase]
  · simp only [List.length_cons] at hshort
    omega

/-- A demultiplexer that has chosen a way presents the oldest flit that it holds.  It
takes one for that when it holds none and the packet goes on. -/
theorem tick_forward_cases {d : Demux} {route : Route} {pending : List Flit} {tailSeen : Bool}
    (hphase : d.phase = .forward route pending tailSeen) (input : Option Flit)
    (ready : Route → Bool) :
    (∃ f, pending = [] ∧ tailSeen = false ∧ input = some f ∧
      d.tick input ready = d.present route [f] f.last true ready) ∨
    ((pending = [] → tailSeen = false → input = none) ∧
      d.tick input ready = d.present route pending tailSeen false ready) := by
  simp only [tick, hphase]
  split
  · rename_i f
    exact Or.inl ⟨f, rfl, rfl, rfl, rfl⟩
  · rename_i hwaits
    refine Or.inr ⟨fun hnil hopen => ?_, rfl⟩
    cases input with
    | none => rfl
    | some f => exact absurd rfl (hwaits f hnil hopen)

/-- The flits that have moved in a step, for each way. -/
def Step.sentTo (s : Step) (way : Route) : List Flit :=
  ((s.moved.filter fun m => m.1 = way).map Prod.snd).toList

/-- The flit that is offered moves when its sink is ready. -/
theorem present_moved (d : Demux) (route : Route) (pending : List Flit) (tailSeen took : Bool)
    (ready : Route → Bool) : (d.present route pending tailSeen took ready).moved =
      (d.present route pending tailSeen took ready).offered.filter fun m => ready m.1 := by
  cases pending with
  | nil => rfl
  | cons f rest => cases hready : ready route <;> simp [present, Step.moved, Option.filter, hready]

theorem tick_moved (d : Demux) (input : Option Flit) (ready : Route → Bool) :
    (d.tick input ready).moved = (d.tick input ready).offered.filter fun m => ready m.1 := by
  cases hphase : d.phase with
  | header held =>
    cases input with
    | none => simp [tick, hphase, Step.moved]
    | some f =>
      simp only [tick, hphase]
      split
      · exact present_moved ..
      · rfl
  | forward route pending tailSeen =>
    simp only [tick, hphase]
    split <;> exact present_moved ..

/-- A flit that is presented to a free sink goes there and nowhere else. -/
theorem present_sentTo (d : Demux) {route : Route} (tailSeen took : Bool) (rest : List Flit)
    (f : Flit) {ready : Route → Bool} (hready : ready route = true) (way : Route) :
    (d.present route (f :: rest) tailSeen took ready).sentTo way =
      if route = way then [f] else [] := by
  have hmoved : (d.present route (f :: rest) tailSeen took ready).moved = some (route, f) := by
    simp [present, hready, Step.moved]
  by_cases hway : route = way
  · subst hway
    simp [Step.sentTo, hmoved, Option.filter]
  · simp [Step.sentTo, hmoved, Option.filter, hway]

variable {d : Demux} {taken : List Flit} {out : Route → List Flit}

theorem carries_initial : Carries {} [] fun _ => [] :=
  ⟨rfl, by simp, fun _ => by simp [routed, routedRuns, routeOf]⟩

/-- What was sent one way is the beginning of what goes this way. -/
theorem Carries.out_prefix (h : d.Carries taken out) (way : Route) :
    out way <+: routed way taken := by
  unfold Carries at h
  split at h
  · exact h.2.2 way ▸ List.prefix_rfl
  · rename_i route pending tailSeen hphase
    by_cases hway : way = route
    · subst hway
      rw [h.1]
      exact List.prefix_append _ _
    · exact h.2.1 way hway ▸ List.prefix_rfl

theorem Carries.congr (h : d.Carries taken out) {out' : Route → List Flit}
    (heq : ∀ way, out' way = out way) : d.Carries taken out' := by
  rw [show out' = out from funext heq]
  exact h

/-- Presenting a flit of the packet in hand moves it, or nothing. -/
theorem Carries.present {route : Route} {pending : List Flit} {tailSeen : Bool}
    (h : ({ d with phase := .forward route pending tailSeen } : Demux).Carries taken out)
    (took : Bool) (ready : Route → Bool) :
    (d.present route pending tailSeen took ready).demux.Carries taken fun way =>
      out way ++ (d.present route pending tailSeen took ready).sentTo way := by
  cases pending with
  | nil => simpa [Demux.present, Step.sentTo, Step.moved] using h
  | cons f rest =>
    cases hready : ready route with
    | false => simpa [Demux.present, hready, Step.sentTo, Step.moved] using h
    | true =>
      obtain ⟨hroute, hothers, htail⟩ := h
      have hout : ∀ way, routed way taken =
          (out way ++ if route = way then [f] else []) ++ if route = way then rest else [] := by
        intro way
        by_cases hway : route = way
        · subst hway
          simpa using hroute
        · simpa [hway] using hothers way (Ne.symm hway)
      have hsent := present_sentTo d tailSeen took rest f hready
      simp only [hsent]
      simp only [Demux.present, hready, if_true]
      cases hlast : f.last with
      | true =>
        cases tailSeen with
        | false => exact absurd (htail.2 f (by simp)) (by simp [hlast])
        | true =>
          obtain ⟨hopen, hrun⟩ := htail
          obtain ⟨-, rfl⟩ | ⟨hnot, -⟩ := hrun.cons_cases
          · refine ⟨hopen.symm, by simp, fun way => ?_⟩
            simpa using hout way
          · simp [hlast] at hnot
      | false =>
        refine ⟨by simpa using hout route, fun way hway => ?_, ?_⟩
        · simpa [Ne.symm hway] using hout way
        · cases tailSeen with
          | false => exact ⟨htail.1, fun g hg => htail.2 g (by simp [hg])⟩
          | true =>
            obtain ⟨hopen, hrun⟩ := htail
            obtain ⟨hyes, -⟩ | ⟨-, hrest⟩ := hrun.cons_cases
            · simp [hlast] at hyes
            · exact ⟨hopen, hrest⟩

theorem Carries.header {held : List Flit} (h : d.Carries taken out)
    (hphase : d.phase = .header held) :
    held = Flit.openRun taken ∧ held.length < 3 ∧
      ∀ way, out way = (routedRuns way taken).flatten := by
  unfold Carries at h
  rw [hphase] at h
  obtain ⟨hheld, hshort, hout⟩ := h
  refine ⟨hheld, hshort, fun way => ?_⟩
  rw [← hout way, routed_of_short (by rw [← hheld]; exact hshort)]

/-- The demultiplexer after a flit that left the header incomplete. -/
theorem carries_short {f : Flit} (hshort : (Flit.openRun taken ++ [f]).length < 3)
    (hout : ∀ way, out way = (routedRuns way taken).flatten)
    (hphase : d.phase = .header (if f.last then [] else Flit.openRun taken ++ [f])) :
    d.Carries (taken ++ [f]) out := by
  have hrouted : ∀ way, routed way (taken ++ [f]) = out way := by
    intro way
    rw [routed_snoc, routeOf_eq_none_iff.mpr hshort, hout way]
    simp
  unfold Carries
  rw [hphase, Flit.openRun_snoc]
  refine ⟨rfl, ?_, hrouted⟩
  split
  · simp
  · exact hshort

/-- The demultiplexer has chosen the way of the packet in hand, and the flits
that it has not sent were taken last. -/
theorem carries_forward {route : Route} {pending : List Flit} {f : Flit}
    (hroute : routeOf (Flit.openRun taken ++ [f]) = some route)
    (hrouted : routed route (taken ++ [f]) = out route ++ pending)
    (hothers : ∀ way, way ≠ route → routed way (taken ++ [f]) = out way)
    (hpending : ∃ xs, pending = xs ++ [f] ∧ ∀ g ∈ xs, g.last = false)
    (hphase : d.phase = .forward route pending f.last) : d.Carries (taken ++ [f]) out := by
  obtain ⟨xs, rfl, hxs⟩ := hpending
  unfold Carries
  rw [hphase, Flit.openRun_snoc]
  refine ⟨hrouted, hothers, ?_⟩
  cases hlast : f.last with
  | true => exact ⟨rfl, Flit.isRun_snoc hxs hlast⟩
  | false =>
    refine ⟨hroute, fun g hg => ?_⟩
    rcases List.mem_append.mp hg with hg | hg
    · exact hxs g hg
    · rw [List.mem_singleton.mp hg]
      exact hlast

@[simp] theorem present_taken (d : Demux) (route : Route) (pending : List Flit)
    (tailSeen took : Bool) (ready : Route → Bool) : (d.present route pending tailSeen took ready).taken = took := by
  unfold Demux.present
  split
  · rfl
  · split <;> rfl

/-- The step that takes a flit while the header is not complete. -/
theorem Carries.tick_header {held : List Flit} (h : d.Carries taken out)
    (hphase : d.phase = .header held) (f : Flit) (ready : Route → Bool) :
    (d.tick (some f) ready).demux.Carries (taken ++ [f])
        (fun way => out way ++ (d.tick (some f) ready).sentTo way) ∧
      (d.tick (some f) ready).taken = true := by
  obtain ⟨hheld, hshort, hout⟩ := h.header hphase
  rcases tick_header_cases hphase hshort f ready with ⟨dest, src, htwo, hstep⟩ | ⟨hlength, hstep⟩
  · -- The header is complete, so its three flits are pending and the first one is presented.
    have hopen : Flit.openRun taken = [dest, src] := hheld.symm.trans htwo
    have hrouted : ∀ way, routed way (taken ++ [f]) = out way ++
        if Route.ofClass (PacketKind.classOfFlags f.word) = way then [dest, src, f] else [] := by
      intro way
      rw [routed_snoc, hopen, hout way]
      simp [routeOf]
    rw [hstep]
    refine ⟨Carries.present (carries_forward (by rw [hopen]; rfl) ?_ ?_ ?_ rfl) true ready, by simp⟩
    · simpa using hrouted (Route.ofClass (PacketKind.classOfFlags f.word))
    · intro way hway
      simpa [Ne.symm hway] using hrouted way
    · exact ⟨[dest, src], rfl, fun g hg => Flit.last_of_mem_openRun (hopen ▸ hg)⟩
  · rw [hstep]
    rw [hheld] at hlength
    refine ⟨?_, rfl⟩
    simpa [Step.sentTo, Step.moved] using carries_short hlength hout (by rw [hheld])

/-- One step keeps account of every flit. -/
theorem Carries.tick (h : d.Carries taken out) (input : Option Flit) (ready : Route → Bool) :
    (d.tick input ready).demux.Carries
      (taken ++ if (d.tick input ready).taken then input.toList else [])
      fun way => out way ++ (d.tick input ready).sentTo way := by
  cases hphase : d.phase with
  | header held =>
    cases input with
    | none => simpa [Demux.tick, hphase, Step.sentTo, Step.moved] using h
    | some f =>
      obtain ⟨hcarries, htaken⟩ := h.tick_header hphase f ready
      simpa [htaken] using hcarries
  | forward route pending tailSeen =>
    have hphase' : d = { d with phase := .forward route pending tailSeen } := by
      rw [← hphase]
    rw [hphase'] at h
    rcases tick_forward_cases hphase input ready with
      ⟨f, rfl, rfl, rfl, hstep⟩ | ⟨-, hstep⟩
    · obtain ⟨hroute, hothers, hopen, -⟩ := h
      rw [hstep, present_taken, if_pos rfl, Option.toList_some]
      refine Carries.present
        (carries_forward (routeOf_append hopen [f]) ?_ ?_ ⟨[], rfl, by simp⟩ rfl) true ready
      · simpa [hroute] using routed_snoc_of_routeOf hopen route
      · intro way hway
        simpa [Ne.symm hway, hothers way hway] using routed_snoc_of_routeOf hopen way
    · rw [hstep]
      simpa using h.present false ready

end Demux

end ProbeNet
