import Mathlib.Data.List.Perm.Basic
import ProbeNet.Proofs.Stream.Routing

/-!
# A demultiplexer between a source and two sinks

The flits of a source arrive when they like and the sinks are ready when they like.
Each sink gets the packets of its classes, in order and one after the other, and no
flit gets lost except those of packets that have no class.

* `Flit.packets` are the packets of a stream.  `routed_register` and `routed_bypass`
  say which of them go which way by the class bits of their third words.
* `Demux.Carries.openRun_out` says that the sink of the packet in hand is the only one
  that can be in the middle of a packet, and `Demux.Carries.perm` where the flits are.
* `DemuxRun.Accounts` is what every tick keeps, the counters included.
-/

namespace ProbeNet

/-! ## The packets of a stream -/

namespace Flit

/-- The packets of a stream.  The last of them may be incomplete, or not begun. -/
def packets (fs : List Flit) : List (List Flit) := runs fs ++ [openRun fs]

/-- The class bits of a packet, once its third word is there. -/
def classBits? (p : List Flit) : Option (BitVec 2) := p[2]?.map fun f => f.word.extractLsb' 14 2

/-- The packets of a stream that have ended before their third word. -/
def runts (fs : List Flit) : List (List Flit) := (runs fs).filter fun r => r.length < 3

theorem runts_snoc (fs : List Flit) (f : Flit) :
    runts (fs ++ [f]) = runts fs ++
      if f.last && decide ((openRun fs ++ [f]).length < 3) then [openRun fs ++ [f]] else [] := by
  rw [runts, runs_snoc]
  cases hlast : f.last with
  | false => simp [runts]
  | true => simp [runts, List.filter_cons]

end Flit

namespace Demux

theorem ofClass_ofBits (b : BitVec 2) :
    Route.ofClass (.ofBits b) = if b = 0 then .register else .bypass := by
  revert b
  decide

/-- The class bits of a packet decide about its way. -/
theorem routeOf_eq (p : List Flit) :
    routeOf p = (Flit.classBits? p).map fun b => if b = 0 then Route.register else .bypass := by
  rcases p with _ | ⟨dest, _ | ⟨src, _ | ⟨flags, rest⟩⟩⟩
  · rfl
  · rfl
  · rfl
  · exact congrArg some (ofClass_ofBits _)

/-- What goes one way are the packets that go this way. -/
theorem routed_eq_flatten (way : Route) (fs : List Flit) :
    routed way fs = ((Flit.packets fs).filter fun p => routeOf p = some way).flatten := by
  rw [routed, Flit.packets, List.filter_append, List.flatten_append]
  by_cases hopen : routeOf (Flit.openRun fs) = some way <;> simp [routedRuns, hopen]

/-- Packets with zero class bits go to the engine, those with others past it. -/
theorem filter_routeOf_register (rs : List (List Flit)) :
    (rs.filter fun p => routeOf p = some .register) =
      rs.filter fun p => Flit.classBits? p = some 0 := by
  refine List.filter_congr fun p _ => ?_
  rw [routeOf_eq]
  rcases Flit.classBits? p with _ | b
  · rfl
  · by_cases hzero : b = 0 <;> simp [hzero]

theorem filter_routeOf_bypass (rs : List (List Flit)) :
    (rs.filter fun p => routeOf p = some .bypass) =
      rs.filter fun p => (Flit.classBits? p).any (· ≠ 0) := by
  refine List.filter_congr fun p _ => ?_
  rw [routeOf_eq]
  rcases Flit.classBits? p with _ | b
  · rfl
  · by_cases hzero : b = 0 <;> simp [hzero]

theorem routed_register (fs : List Flit) : routed .register fs =
    ((Flit.packets fs).filter fun p => Flit.classBits? p = some 0).flatten := by
  rw [routed_eq_flatten, filter_routeOf_register]

theorem routed_bypass (fs : List Flit) : routed .bypass fs =
    ((Flit.packets fs).filter fun p => (Flit.classBits? p).any (· ≠ 0)).flatten := by
  rw [routed_eq_flatten, filter_routeOf_bypass]

theorem runs_routed_bypass (fs : List Flit) : Flit.runs (routed .bypass fs) =
    (Flit.runs fs).filter fun p => (Flit.classBits? p).any (· ≠ 0) := by
  rw [runs_routed, routedRuns, filter_routeOf_bypass]

theorem routed_prefix_snoc (way : Route) (fs : List Flit) (f : Flit) :
    routed way fs <+: routed way (fs ++ [f]) := by
  rw [routed_snoc, routed]
  refine (List.prefix_append_right_inj _).mpr ?_
  by_cases hopen : routeOf (Flit.openRun fs) = some way
  · rw [if_pos hopen, if_pos (routeOf_append hopen [f])]
    exact List.prefix_append _ _
  · rw [if_neg hopen]
    exact List.nil_prefix

/-- More flits only add to what goes one way. -/
theorem routed_prefix (way : Route) {xs ys : List Flit} (h : xs <+: ys) :
    routed way xs <+: routed way ys := by
  obtain ⟨zs, rfl⟩ := h
  induction zs using List.reverseRecOn with
  | nil => simp
  | append_singleton zs f ih =>
    rw [← List.append_assoc]
    exact ih.trans (routed_prefix_snoc way _ f)

/-- The complete packets of a stream go one way or the other, or they are too short. -/
theorem perm_runs (rs : List (List Flit)) :
    (rs.filter (fun r => routeOf r = some .register) ++
      (rs.filter (fun r => routeOf r = some .bypass) ++ rs.filter fun r => r.length < 3)).Perm
        rs := by
  refine ((List.Perm.append_left _ ?_).trans
    (List.filter_append_perm (fun r => routeOf r = some .register) rs))
  refine List.Perm.trans ?_ (List.filter_append_perm (fun r => routeOf r = some .bypass) _)
  rw [List.filter_filter, List.filter_filter]
  refine List.Perm.of_eq (congrArg₂ (· ++ ·) ?_ ?_)
  · refine List.filter_congr fun r _ => ?_
    by_cases hbypass : routeOf r = some .bypass <;> simp [hbypass]
  · refine List.filter_congr fun r _ => ?_
    rw [Bool.eq_iff_iff]
    simp only [decide_eq_true_eq, Bool.and_eq_true, Bool.not_eq_true', decide_eq_false_iff_not,
      ← routeOf_eq_none_iff]
    rcases routeOf r with _ | ⟨_ | _⟩ <;> simp

/-- Every flit of a stream goes one way or the other, unless its packet is too short
or has not got so far. -/
theorem perm_routed (fs : List Flit) :
    fs.Perm (routed .register fs ++ routed .bypass fs ++ (Flit.runts fs).flatten ++
      if (Flit.openRun fs).length < 3 then Flit.openRun fs else []) := by
  have hruns := (perm_runs (Flit.runs fs)).flatten
  rw [List.flatten_append, List.flatten_append] at hruns
  have hopen : Flit.openRun fs =
      (if routeOf (Flit.openRun fs) = some .register then Flit.openRun fs else []) ++
        (if routeOf (Flit.openRun fs) = some .bypass then Flit.openRun fs else []) ++
          if (Flit.openRun fs).length < 3 then Flit.openRun fs else [] := by
    simp only [← routeOf_eq_none_iff]
    cases routeOf (Flit.openRun fs) with
    | none => simp
    | some way => cases way <;> simp
  refine List.perm_iff_count.mpr fun f => ?_
  have hflat := congrArg (List.count f) (Flit.flatten_runs fs)
  have hcount := hruns.count_eq f
  have hrest := congrArg (List.count f) hopen
  simp only [routed, routedRuns, Flit.runts, List.count_append] at hflat hcount hrest ⊢
  omega

/-! ## What one tick does -/

variable {d : Demux} {taken : List Flit} {out : Route → List Flit}

/-- How many packets have gone one way. -/
def packetsSent (d : Demux) : Route → Nat
  | .register => d.registerPackets
  | .bypass => d.bypassPackets

theorem packetsSent_count (d : Demux) (route way : Route) :
    (d.count route).packetsSent way = d.packetsSent way + if route = way then 1 else 0 := by
  cases route <;> cases way <;> rfl

theorem present_packetsSent (d : Demux) (route : Route) (pending : List Flit)
    (tailSeen took : Bool) (ready : Route → Bool) (way : Route) :
    (d.present route pending tailSeen took ready).demux.packetsSent way = d.packetsSent way +
      ((d.present route pending tailSeen took ready).sentTo way).countP Flit.last := by
  cases pending with
  | nil => cases way <;> rfl
  | cons f rest =>
    cases hready : ready route with
    | false =>
      simp only [present, hready]
      cases way <;> rfl
    | true =>
      rw [present_sentTo d tailSeen took rest f hready]
      simp only [present, hready, if_true]
      cases hlast : f.last with
      | true =>
        refine (packetsSent_count d route way).trans ?_
        by_cases hway : route = way <;> simp [hway, hlast]
      | false =>
        have hnone : (if route = way then [f] else []).countP Flit.last = 0 := by
          by_cases hway : route = way <;> simp [hway, hlast]
        rw [hnone]
        cases way <;> rfl

theorem present_runts (d : Demux) (route : Route) (pending : List Flit) (tailSeen took : Bool)
    (ready : Route → Bool) :
    (d.present route pending tailSeen took ready).demux.runts = d.runts := by
  cases pending with
  | nil => rfl
  | cons f rest =>
    simp only [present]
    split
    · split
      · cases route <;> rfl
      · rfl
    · rfl

theorem present_length_held (d : Demux) (route : Route) (pending : List Flit)
    (tailSeen took : Bool) (ready : Route → Bool) :
    (d.present route pending tailSeen took ready).demux.held.length ≤ pending.length := by
  cases pending with
  | nil => exact Nat.le_refl 0
  | cons f rest =>
    simp only [present]
    split
    · split
      · exact Nat.zero_le _
      · exact Nat.le_succ _
    · exact Nat.le_refl _

theorem present_offered {route way : Route} {pending : List Flit} {tailSeen took : Bool}
    {ready : Route → Bool} {f : Flit}
    (h : (d.present route pending tailSeen took ready).offered = some (way, f)) : way = route := by
  cases pending with
  | nil => cases h
  | cons g rest =>
    simp only [present] at h
    split at h
    · exact (Prod.mk.inj (Option.some.inj h)).1.symm
    · exact (Prod.mk.inj (Option.some.inj h)).1.symm

/-- A flit goes to the sink of the packet in hand, if there is one, and the sink is
ready for it. -/
theorem tick_moved_some {input : Option Flit} {ready : Route → Bool} {way : Route} {f : Flit}
    (h : (d.tick input ready).moved = some (way, f)) :
    ready way = true ∧ (d.activeRoute = none ∨ d.activeRoute = some way) := by
  rw [tick_moved, Option.filter_eq_some_iff] at h
  obtain ⟨hoffered, hready⟩ := h
  refine ⟨hready, ?_⟩
  cases hphase : d.phase with
  | header held => exact Or.inl (by simp [activeRoute, hphase])
  | forward route pending tailSeen =>
    have hroute : way = route := by
      rcases tick_forward_cases hphase input ready with ⟨g, -, -, -, hstep⟩ | ⟨-, hstep⟩
      · rw [hstep] at hoffered
        exact present_offered hoffered
      · rw [hstep] at hoffered
        exact present_offered hoffered
    exact Or.inr (by simp [activeRoute, hphase, hroute])

/-! ## Where the flits are -/

theorem openRun_routed {way : Route} {fs : List Flit}
    (h : routeOf (Flit.openRun fs) ≠ some way) : Flit.openRun (routed way fs) = [] := by
  rw [routed, if_neg h, List.append_nil]
  exact Flit.openRun_flatten fun r hr => isRun_of_mem_routedRuns hr

/-- No sink is in the middle of a packet but that of the packet in hand. -/
theorem Carries.openRun_out (h : d.Carries taken out) {way : Route}
    (hway : d.activeRoute ≠ some way) : Flit.openRun (out way) = [] := by
  cases hphase : d.phase with
  | header held =>
    obtain ⟨-, -, hout⟩ := h.header hphase
    rw [hout way]
    exact Flit.openRun_flatten fun r hr => isRun_of_mem_routedRuns hr
  | forward route pending tailSeen =>
    have hne : way ≠ route := by
      rintro rfl
      exact hway (by simp [activeRoute, hphase])
    unfold Carries at h
    rw [hphase] at h
    obtain ⟨-, hothers, htail⟩ := h
    rw [← hothers way hne]
    refine openRun_routed ?_
    cases tailSeen with
    | true =>
      rw [htail.1]
      simp [routeOf]
    | false =>
      rw [htail.1]
      simpa using Ne.symm hne

/-- Every flit that was taken has been sent or is held, or its packet was too short. -/
theorem Carries.perm (h : d.Carries taken out) :
    taken.Perm (out .register ++ out .bypass ++ d.held ++ (Flit.runts taken).flatten) := by
  refine (perm_routed taken).trans (List.perm_iff_count.mpr fun f => ?_)
  unfold Carries at h
  cases hphase : d.phase with
  | header held =>
    rw [hphase] at h
    obtain ⟨hheld, hshort, hrouted⟩ := h
    rw [hheld] at hshort
    simp only [Demux.held, hphase, hheld, hrouted, if_pos hshort, List.count_append]
    omega
  | forward route pending tailSeen =>
    rw [hphase] at h
    obtain ⟨hroute, hothers, htail⟩ := h
    have hopen : (if (Flit.openRun taken).length < 3 then Flit.openRun taken else []) = [] := by
      cases tailSeen with
      | true =>
        rw [htail.1]
        rfl
      | false =>
        refine if_neg fun hshort => ?_
        rw [routeOf_eq_none_iff.mpr hshort] at htail
        cases htail.1
    have hcount := congrArg (List.count f) hroute
    simp only [Demux.held, hphase, hopen, List.count_append, List.count_nil] at hcount ⊢
    cases route with
    | register =>
      have hother := congrArg (List.count f) (hothers .bypass (by decide))
      omega
    | bypass =>
      have hother := congrArg (List.count f) (hothers .register (by decide))
      omega

/-! ## What every tick keeps -/

/-- The demultiplexer has taken the flits `taken` and sent the flits `out`, and it has
counted the packets among them. -/
structure Tallies (d : Demux) (taken : List Flit) (out : Route → List Flit) : Prop where
  carries : d.Carries taken out
  held : d.held.length ≤ 3
  sent : ∀ way, d.packetsSent way = (out way).countP Flit.last
  runts : d.runts = (Flit.runts taken).length

theorem tallies_initial : Tallies {} [] fun _ => [] :=
  ⟨carries_initial, Nat.zero_le _, fun way => by cases way <;> rfl, rfl⟩

/-- Presenting a flit counts the packet that it ends. -/
theorem present_counts (d : Demux) (route : Route) {pending : List Flit} (tailSeen took : Bool)
    (ready : Route → Bool) (hpending : pending.length ≤ 3) :
    (d.present route pending tailSeen took ready).demux.held.length ≤ 3 ∧
      (∀ way, (d.present route pending tailSeen took ready).demux.packetsSent way =
        d.packetsSent way +
          ((d.present route pending tailSeen took ready).sentTo way).countP Flit.last) ∧
      (d.present route pending tailSeen took ready).demux.runts = d.runts :=
  ⟨Nat.le_trans (present_length_held ..) hpending, present_packetsSent d route pending tailSeen
    took ready, present_runts ..⟩

/-- A flit that comes as the third or later one of a packet ends no packet that is too
short. -/
theorem runts_snoc_of_routeOf {fs : List Flit} {f : Flit} {route : Route}
    (h : routeOf (Flit.openRun fs ++ [f]) = some route) :
    Flit.runts (fs ++ [f]) = Flit.runts fs := by
  have hlong : ¬ (Flit.openRun fs ++ [f]).length < 3 := by
    rw [← routeOf_eq_none_iff, h]
    exact Option.some_ne_none route
  rw [Flit.runts_snoc, decide_eq_false hlong, Bool.and_false]
  simp

theorem Carries.tick_counts (h : d.Carries taken out) (hheld : d.held.length ≤ 3)
    (input : Option Flit) (ready : Route → Bool) :
    (d.tick input ready).demux.held.length ≤ 3 ∧
      (∀ way, (d.tick input ready).demux.packetsSent way =
        d.packetsSent way + ((d.tick input ready).sentTo way).countP Flit.last) ∧
      (d.tick input ready).demux.runts + (Flit.runts taken).length = d.runts +
        (Flit.runts (taken ++ if (d.tick input ready).taken then input.toList else [])).length := by
  cases hphase : d.phase with
  | header held =>
    cases input with
    | none =>
      have hstep : d.tick none ready =
          { demux := d, taken := false, offered := none, sent := false } := by
        simp [Demux.tick, hphase]
      rw [hstep]
      exact ⟨hheld, fun way => rfl, by simp⟩
    | some f =>
      obtain ⟨rfl, hshort, -⟩ := h.header hphase
      rcases tick_header_cases hphase hshort f ready with
        ⟨dest, src, hopen, hstep⟩ | ⟨hlength, hstep⟩
      · have hroute : routeOf (Flit.openRun taken ++ [f]) =
            some (Route.ofClass (PacketKind.classOfFlags f.word)) := by
          rw [hopen]
          rfl
        rw [hstep]
        obtain ⟨hless, hsent, hrunts⟩ := d.present_counts
          (Route.ofClass (PacketKind.classOfFlags f.word)) f.last true ready
          (Nat.le_refl [dest, src, f].length)
        refine ⟨hless, hsent, ?_⟩
        rw [present_taken, if_pos rfl, Option.toList_some, runts_snoc_of_routeOf hroute, hrunts]
      · rw [hstep]
        refine ⟨?_, fun way => by cases way <;> rfl, ?_⟩
        · show (if f.last then [] else Flit.openRun taken ++ [f]).length ≤ 3
          split
          · exact Nat.zero_le _
          · exact Nat.le_of_lt hlength
        · rw [if_pos rfl, Option.toList_some, Flit.runts_snoc, decide_eq_true hlength,
            Bool.and_true]
          cases f.last with
          | true =>
            simp only [Bool.toNat_true, if_true, List.length_append, List.length_singleton]
            omega
          | false => simp
  | forward route pending tailSeen =>
    have hpending : pending.length ≤ 3 := by simpa [Demux.held, hphase] using hheld
    rcases tick_forward_cases hphase input ready with ⟨f, rfl, rfl, rfl, hstep⟩ | ⟨-, hstep⟩
    · unfold Carries at h
      rw [hphase] at h
      obtain ⟨-, -, hopen, -⟩ := h
      rw [hstep]
      obtain ⟨hless, hsent, hrunts⟩ := d.present_counts route f.last true ready
        (Nat.le_of_lt (Nat.one_lt_succ_succ 1) : [f].length ≤ 3)
      refine ⟨hless, hsent, ?_⟩
      rw [present_taken, if_pos rfl, Option.toList_some,
        runts_snoc_of_routeOf (routeOf_append hopen [f]), hrunts]
    · rw [hstep]
      obtain ⟨hless, hsent, hrunts⟩ := d.present_counts route tailSeen false ready hpending
      refine ⟨hless, hsent, ?_⟩
      rw [present_taken, hrunts]
      simp

theorem Tallies.tick (t : d.Tallies taken out) (input : Option Flit) (ready : Route → Bool) :
    (d.tick input ready).demux.Tallies
      (taken ++ if (d.tick input ready).taken then input.toList else [])
      fun way => out way ++ (d.tick input ready).sentTo way := by
  obtain ⟨hheld, hsent, hrunts⟩ := t.carries.tick_counts t.held input ready
  refine ⟨t.carries.tick input ready, hheld, fun way => ?_, ?_⟩
  · rw [hsent way, t.sent way, List.countP_append]
  · have hbefore := t.runts
    omega

/-- Every packet has one last flit, which the demultiplexer has sent or holds, unless the packet
was too short. -/
theorem Tallies.marks (t : d.Tallies taken out) :
    taken.countP Flit.last = (out .register).countP Flit.last + (out .bypass).countP Flit.last +
      d.held.countP Flit.last + d.runts := by
  have hrunts : (Flit.runts taken).flatten.countP Flit.last = (Flit.runts taken).length := by
    rw [← Flit.length_runs, Flit.runts, Flit.runs_flatten fun r hr =>
      Flit.isRun_of_mem_runs (List.mem_filter.mp hr).1]
  rw [t.carries.perm.countP_eq, List.countP_append, List.countP_append, List.countP_append, hrunts,
    t.runts]

end Demux

/-! ## Runs -/

/-- What happens around a demultiplexer. -/
inductive DemuxAction where
  /-- A flit arrives in front of it. -/
  | arrive (f : Flit)
  /-- It takes a step, with sinks that are ready or not. -/
  | tick (registerReady bypassReady : Bool)

/-- A demultiplexer with its source and its sinks, and the flits that have arrived
at the source. -/
structure DemuxRun where
  bench : DemuxBench := {}
  arrived : List Flit := []

namespace DemuxBench

/-- What a sink has received. -/
def received (b : DemuxBench) : Route → List Flit
  | .register => b.register
  | .bypass => b.bypass

/-- The step of the demultiplexer in a tick. -/
def step (b : DemuxBench) (ready : Route → Bool) : Demux.Step := b.demux.tick b.source.head? ready

variable (b : DemuxBench) (ready : Route → Bool)

/-- A tick is a step of the demultiplexer, after which each sink has what was sent to it. -/
theorem tick_eq : b.tick (ready .register) (ready .bypass) =
    ({ b with
        demux := (b.step ready).demux
        source := if (b.step ready).taken then b.source.tail else b.source }.receive
      (b.step ready).moved, (b.step ready).moved.map Prod.fst) := by
  have hready : (fun way => match way with
      | Route.register => ready .register
      | Route.bypass => ready .bypass) = ready := by
    funext way
    cases way <;> rfl
  rw [step, ← hready]
  rfl

theorem receive_received (moved : Option (Route × Flit)) (way : Route) :
    (b.receive moved).received way =
      b.received way ++ ((moved.filter fun m => m.1 = way).map Prod.snd).toList := by
  rcases moved with _ | ⟨_ | _, f⟩ <;> cases way <;> simp [receive, received, Option.filter]

theorem tick_received (way : Route) :
    (b.tick (ready .register) (ready .bypass)).1.received way =
      b.received way ++ (b.step ready).sentTo way := by
  rw [tick_eq, receive_received]
  cases way <;> rfl

theorem tick_demux :
    (b.tick (ready .register) (ready .bypass)).1.demux = (b.step ready).demux := by
  rw [tick_eq]
  rcases (b.step ready).moved with _ | ⟨_ | _, f⟩ <;> rfl

/-- The flit that the demultiplexer takes is the next one of the source. -/
theorem tick_source : (if (b.step ready).taken then b.source.head?.toList else []) ++
    (b.tick (ready .register) (ready .bypass)).1.source = b.source := by
  have hsource : (b.tick (ready .register) (ready .bypass)).1.source =
      if (b.step ready).taken then b.source.tail else b.source := by
    rw [tick_eq]
    rcases (b.step ready).moved with _ | ⟨_ | _, f⟩ <;> rfl
  rw [hsource]
  cases (b.step ready).taken with
  | false => rfl
  | true => cases b.source <;> rfl

end DemuxBench

namespace DemuxRun

/-- The run after one more action. -/
def act (r : DemuxRun) : DemuxAction → DemuxRun
  | .arrive f => { bench := r.bench.feed [f], arrived := r.arrived ++ [f] }
  | .tick registerReady bypassReady =>
    { r with bench := (r.bench.tick registerReady bypassReady).1 }

/-- The run of some actions, from a demultiplexer that has seen nothing. -/
def ofActions (actions : List DemuxAction) : DemuxRun := actions.foldl act {}

/-- Of what has arrived, the demultiplexer has taken the flits `taken`. -/
structure Accounts (r : DemuxRun) (taken : List Flit) : Prop where
  arrived : r.arrived = taken ++ r.bench.source
  tallies : r.bench.demux.Tallies taken r.bench.received

variable {r : DemuxRun} {taken : List Flit}

/-- Both actions keep the account. -/
theorem Accounts.act (a : r.Accounts taken) (action : DemuxAction) :
    ∃ taken', (r.act action).Accounts taken' := by
  cases action with
  | arrive f =>
    refine ⟨taken, ?_, a.tallies⟩
    show r.arrived ++ [f] = taken ++ (r.bench.source ++ [f])
    rw [a.arrived, List.append_assoc]
  | tick registerReady bypassReady =>
    let ready : Route → Bool
      | .register => registerReady
      | .bypass => bypassReady
    have hstep := a.tallies.tick r.bench.source.head? ready
    refine ⟨taken ++ if (r.bench.step ready).taken then r.bench.source.head?.toList else [], ?_, ?_⟩
    · show r.arrived = _ ++ (r.bench.tick (ready .register) (ready .bypass)).1.source
      rw [List.append_assoc, r.bench.tick_source ready, a.arrived]
    · show (r.bench.tick (ready .register) (ready .bypass)).1.demux.Tallies _
        (r.bench.tick (ready .register) (ready .bypass)).1.received
      rw [r.bench.tick_demux ready, funext (r.bench.tick_received ready)]
      exact hstep

theorem accounts_ofActions (actions : List DemuxAction) :
    ∃ taken, (ofActions actions).Accounts taken := by
  unfold ofActions
  induction actions using List.reverseRecOn with
  | nil =>
    have hnothing : ({} : DemuxRun).bench.received = fun _ => [] := by
      funext way
      cases way <;> rfl
    exact ⟨[], rfl, hnothing ▸ Demux.tallies_initial⟩
  | append_singleton actions action ih =>
    obtain ⟨taken, a⟩ := ih
    rw [List.foldl_append]
    exact a.act action

/-- A tick moves a flit to the sink that it names, if it names one, and none to the
other; and then the other sink is not in the middle of a packet. -/
theorem Accounts.tick_cases (a : r.Accounts taken) (ready : Route → Bool) (way : Route) :
    ((r.bench.tick (ready .register) (ready .bypass)).1.received way = r.bench.received way ∧
      (r.bench.tick (ready .register) (ready .bypass)).2 ≠ some way) ∨
    ((∃ f, (r.bench.tick (ready .register) (ready .bypass)).1.received way =
        r.bench.received way ++ [f]) ∧
      (r.bench.tick (ready .register) (ready .bypass)).2 = some way ∧ ready way = true ∧
      ∀ other, other ≠ way → Flit.openRun (r.bench.received other) = []) := by
  rw [r.bench.tick_received ready, r.bench.tick_eq ready, Demux.Step.sentTo]
  cases hmoved : (r.bench.step ready).moved with
  | none => exact Or.inl (by simp)
  | some m =>
    obtain ⟨route, f⟩ := m
    by_cases hway : route = way
    · subst hway
      obtain ⟨hready, hactive⟩ := Demux.tick_moved_some hmoved
      refine Or.inr ⟨⟨f, by simp [Option.filter]⟩, rfl, hready, fun other hother => ?_⟩
      refine a.tallies.carries.openRun_out fun hopen => ?_
      rw [hopen] at hactive
      rcases hactive with hnone | hsome
      · cases hnone
      · exact hother (Option.some.inj hsome)
    · refine Or.inl ⟨?_, by simpa using hway⟩
      simp [Option.filter, hway]

end DemuxRun

/-- Take a demultiplexer at the start, flits that arrive in front of it when they like,
and any ticks with sinks that are ready when they like.

The register sink has received the packets whose class bits are zero, in order, or the
beginning of them, and the bypass sink the other packets that have class bits.  Each
flit that was taken has gone to a sink, or it is among at most three that the
demultiplexer holds, or its packet ended before the third word.  The counters are the
numbers of the packets that each sink has received and of those that were too short.
And a tick moves at most one flit: it goes to the sink that the tick returns, which is
ready for it, while the other sink is not in the middle of a packet. -/
theorem demux_separates_classes (actions : List DemuxAction) :
    let r := DemuxRun.ofActions actions
    let d := r.bench.demux
    r.bench.register <+:
      ((Flit.packets r.arrived).filter fun p => Flit.classBits? p = some 0).flatten ∧
    r.bench.bypass <+:
      ((Flit.packets r.arrived).filter fun p => (Flit.classBits? p).any (· ≠ 0)).flatten ∧
    (∃ taken, r.arrived = taken ++ r.bench.source ∧ d.held.length ≤ 3 ∧
      taken.Perm (r.bench.register ++ r.bench.bypass ++ d.held ++ (Flit.runts taken).flatten) ∧
      d.registerPackets = (Flit.runs r.bench.register).length ∧
      d.bypassPackets = (Flit.runs r.bench.bypass).length ∧
      d.runts = (Flit.runts taken).length) ∧
    ∀ (ready : Route → Bool) (way : Route),
      let next := r.bench.tick (ready .register) (ready .bypass)
      (next.1.received way = r.bench.received way ∧ next.2 ≠ some way) ∨
      ((∃ f, next.1.received way = r.bench.received way ++ [f]) ∧ next.2 = some way ∧
        ready way = true ∧ ∀ other, other ≠ way → Flit.openRun (r.bench.received other) = []) := by
  intro r d
  obtain ⟨taken, a⟩ := DemuxRun.accounts_ofActions actions
  have harrived : taken <+: r.arrived := by
    rw [a.arrived]
    exact List.prefix_append _ _
  have hprefix : ∀ way, r.bench.received way <+: Demux.routed way r.arrived := fun way =>
    (a.tallies.carries.out_prefix way).trans (Demux.routed_prefix way harrived)
  refine ⟨?_, ?_, ⟨taken, a.arrived, a.tallies.held, a.tallies.carries.perm, ?_, ?_,
    a.tallies.runts⟩, fun ready way => a.tick_cases ready way⟩
  · rw [← Demux.routed_register]
    exact hprefix .register
  · rw [← Demux.routed_bypass]
    exact hprefix .bypass
  · rw [Flit.length_runs]
    exact a.tallies.sent .register
  · rw [Flit.length_runs]
    exact a.tallies.sent .bypass

end ProbeNet
