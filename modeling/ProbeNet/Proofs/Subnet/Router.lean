import ProbeNet.Node.Module
import ProbeNet.Proofs.Stream.Framing
import ProbeNet.Proofs.Stream.Stores
import ProbeNet.Subnet

/-!
# What the router of a subnet does

The router stages the packets of the host until they are complete, and hands each to the
module that it names.

* `Subnet.deliveries` is what a module gets of a stream: the runs that are short enough and
  name the module.
* `Subnet.Routes` ties the state of the router to the flits that it has taken.
* `Routes.take_cases` and `stepForward_cases` say all that a step of the router can do;
  `Routes.take` and `Routes.hand` what becomes of the flits.
-/

namespace ProbeNet

open Register

namespace Subnet

/-! ## What the router delivers -/

theorem address_eq_iff {a : Address} {i : Nat} (hi : i < 1024) :
    a = BitVec.ofNat 10 i ↔ a.toNat = i := by
  constructor
  · rintro rfl
    exact Nat.mod_eq_of_lt hi
  · rintro rfl
    simp

/-- The module that a run of flits names. -/
def destOf (r : List Flit) : Nat := (Address.ofWord ((r.head?.map Flit.word).getD 0)).toNat

/-- Whether the router hands a run to the module at place `i`. -/
def goesTo (limit i : Nat) (r : List Flit) : Bool := r.length ≤ limit && destOf r = i

theorem goesTo_of_long {limit i : Nat} {r : List Flit} (h : limit < r.length) :
    goesTo limit i r = false := by
  simp [goesTo, Nat.not_le.mpr h]

theorem goesTo_of_short {limit i : Nat} {r : List Flit} (h : r.length ≤ limit) :
    goesTo limit i r = decide (destOf r = i) := by
  simp [goesTo, h]

/-- The runs of a stream that are for the module at place `i`. -/
def deliveries (limit i : Nat) (fs : List Flit) : List Flit :=
  ((Flit.runs fs).filter (goesTo limit i)).flatten

theorem deliveries_snoc (limit i : Nat) (fs : List Flit) (f : Flit) :
    deliveries limit i (fs ++ [f]) = deliveries limit i fs ++
      if f.last && goesTo limit i (Flit.openRun fs ++ [f]) then Flit.openRun fs ++ [f] else [] := by
  unfold deliveries
  rw [Flit.runs_snoc]
  cases hlast : f.last with
  | false => simp
  | true => cases hgoes : goesTo limit i (Flit.openRun fs ++ [f]) <;> simp [hgoes]

theorem deliveries_prefix (limit i : Nat) {xs ys : List Flit} (h : xs <+: ys) :
    deliveries limit i xs <+: deliveries limit i ys := by
  obtain ⟨more, hmore⟩ := (Flit.runs_prefix h).filter (goesTo limit i)
  rw [deliveries, deliveries, ← hmore, List.flatten_append]
  exact List.prefix_append _ _

/-- The runs that are delivered are whole. -/
theorem runs_deliveries (limit i : Nat) (fs : List Flit) :
    Flit.runs (deliveries limit i fs) = (Flit.runs fs).filter (goesTo limit i) :=
  Flit.runs_flatten fun _ hr => Flit.isRun_of_mem_runs (List.mem_filter.mp hr).1

/-! ## Where the router is -/

/-- What is staged for the module at place `i`. -/
def pendingFor (s : Subnet) (i : Nat) : List Flit := if s.phase = .forward i then s.staged else []

/-- The router has taken the flits `taken` from the ingress. -/
def Routes (s : Subnet) (taken : List Flit) : Prop :=
  match s.phase with
  | .collect => s.staged = Flit.openRun taken ∧ s.staged.length ≤ s.maxPacketLen
  | .forward i => i < s.nodes.length ∧ Flit.openRun taken = [] ∧ Flit.IsRun s.staged
  | .drop => s.staged = [] ∧ s.maxPacketLen < (Flit.openRun taken).length

variable {s : Subnet} {taken : List Flit} {f : Flit}

theorem Routes.of_collect (h : s.Routes taken) (hphase : s.phase = .collect) :
    s.staged = Flit.openRun taken ∧ s.staged.length ≤ s.maxPacketLen := by
  unfold Routes at h
  rwa [hphase] at h

theorem Routes.of_forward (h : s.Routes taken) {i : Nat} (hphase : s.phase = .forward i) :
    i < s.nodes.length ∧ Flit.openRun taken = [] ∧ Flit.IsRun s.staged := by
  unfold Routes at h
  rwa [hphase] at h

theorem Routes.of_drop (h : s.Routes taken) (hphase : s.phase = .drop) :
    s.staged = [] ∧ s.maxPacketLen < (Flit.openRun taken).length := by
  unfold Routes at h
  rwa [hphase] at h

theorem Routes.congr (h : s.Routes taken) {s' : Subnet} (hphase : s'.phase = s.phase)
    (hstaged : s'.staged = s.staged) (hcount : s'.nodes.length = s.nodes.length)
    (hlimit : s'.maxPacketLen = s.maxPacketLen) : s'.Routes taken := by
  unfold Routes at h ⊢
  rw [hphase, hstaged, hcount, hlimit]
  exact h

theorem pendingFor_of_not_forward (h : ∀ i, s.phase ≠ .forward i) (i : Nat) :
    s.pendingFor i = [] := if_neg (h i)

@[simp] theorem length_modifyModule (s : Subnet) (i : Nat)
    (g : DebugModule ModuleBackend → DebugModule ModuleBackend) :
    (s.modifyModule i g).nodes.length = s.nodes.length := by
  simp [modifyModule]

/-- The nodes of a subnet after the module at place `i` changed. -/
theorem getElem?_modifyModule {s : Subnet} {i j : Nat}
    {g : DebugModule ModuleBackend → DebugModule ModuleBackend} {n' : Node}
    (h : (s.modifyModule i g).nodes[j]? = some n') :
    ∃ n, s.nodes[j]? = some n ∧ n' = if i = j then { n with module := g n.module } else n := by
  simp only [modifyModule, List.getElem?_modify] at h
  obtain ⟨n, hn, rfl⟩ := Option.map_eq_some_iff.mp h
  refine ⟨n, hn, ?_⟩
  by_cases hij : i = j <;> simp [hij]

theorem modifyModule_congr {s : Subnet} {i : Nat} {n : Node}
    {g g' : DebugModule ModuleBackend → DebugModule ModuleBackend} (hn : s.nodes[i]? = some n)
    (hg : g n.module = g' n.module) : s.modifyModule i g = s.modifyModule i g' := by
  have hnodes : (s.modifyModule i g).nodes = (s.modifyModule i g').nodes := by
    refine List.ext_getElem? fun j => ?_
    simp only [modifyModule, List.getElem?_modify]
    by_cases hij : i = j
    · subst hij
      simp [hn, hg]
    · simp [hij]
  exact congrArg (fun nodes => { s with nodes }) hnodes

theorem modifyModule_of_none {s : Subnet} {i : Nat} (hn : s.nodes[i]? = none)
    (g : DebugModule ModuleBackend → DebugModule ModuleBackend) : s.modifyModule i g = s := by
  unfold modifyModule
  rw [List.modify_eq_self (List.getElem?_eq_none_iff.mp hn)]

/-- What someone does with one module changes this module and nothing else. -/
theorem emitEvent_fst (s : Subnet) (a : Address) (payload : List Word) :
    (s.emitEvent a payload).1 = s.modifyModule a.toNat fun m => (m.emitEvent payload).1 := by
  cases hn : s.nodes[a.toNat]? with
  | none => simp only [emitEvent, module?, hn, Option.map_none, modifyModule_of_none hn]
  | some n =>
    simp only [emitEvent, module?, hn, Option.map_some]
    exact modifyModule_congr hn rfl

theorem takeInbox_fst (s : Subnet) (a : Address) :
    (s.takeInbox a).1 = s.modifyModule a.toNat fun m => m.takeInbox.1 := by
  cases hn : s.nodes[a.toNat]? with
  | none => simp only [takeInbox, module?, hn, Option.map_none, modifyModule_of_none hn]
  | some n =>
    simp only [takeInbox, module?, hn, Option.map_some]
    exact modifyModule_congr hn rfl

/-! ## What the router does with a packet -/

/-- A packet that is complete is staged for the module that it names, or dropped
when there is none. -/
theorem routeStaged_cases (s : Subnet) (staged : List Flit) :
    (destOf staged < s.nodes.length ∧
      s.routeStaged staged = { s with staged, phase := .forward (destOf staged) }) ∨
    (s.nodes.length ≤ destOf staged ∧
      s.routeStaged staged =
        { s with staged := [], counts.unroutable := s.counts.unroutable + 1 }) := by
  by_cases hdest : destOf staged < s.nodes.length
  · have hroute : s.routeOf (Address.ofWord ((staged.head?.map Flit.word).getD 0)) =
        some (destOf staged) := if_pos hdest
    exact Or.inl ⟨hdest, by simp only [routeStaged, hroute]⟩
  · have hroute : s.routeOf (Address.ofWord ((staged.head?.map Flit.word).getD 0)) = none :=
      if_neg hdest
    exact Or.inr ⟨Nat.not_lt.mp hdest, by simp only [routeStaged, hroute]⟩

/-- Staging a flit is all that becomes of it, if it is not dropped. -/
theorem stepCollect_frame (s : Subnet) (f : Flit) :
    (s.stepCollect f).nodes = s.nodes ∧ (s.stepCollect f).ingress = s.ingress ∧
      (s.stepCollect f).egress = s.egress ∧ (s.stepCollect f).arbiter = s.arbiter ∧
      (s.stepCollect f).staged.length ≤ s.staged.length + 1 := by
  simp only [stepCollect]
  split
  · exact ⟨rfl, rfl, rfl, rfl, Nat.zero_le _⟩
  · split
    · rcases s.routeStaged_cases (s.staged ++ [f]) with ⟨-, hstep⟩ | ⟨-, hstep⟩
      · rw [hstep]
        refine ⟨rfl, rfl, rfl, rfl, ?_⟩
        simp
      · rw [hstep]
        exact ⟨rfl, rfl, rfl, rfl, Nat.zero_le _⟩
    · refine ⟨rfl, rfl, rfl, rfl, ?_⟩
      simp

/-! ## Taking a flit -/

/-- What becomes of the next flit of the host, when nothing is to be handed over.  It makes its
packet too long, which is counted when it is the first to do so; or the packet goes on; or the
packet is complete and is staged for its module, or counted when there is no such module. -/
theorem Routes.take_cases (h : s.Routes taken) (hnone : ∀ i, s.phase ≠ .forward i)
    (hpeek : s.ingress.peek = some f) :
    let run := Flit.openRun taken ++ [f]
    (s.maxPacketLen < run.length ∧ s.stepRouter =
      { s with
        ingress := s.ingress.pop
        staged := []
        phase := if f.last then .collect else .drop
        counts.oversized := s.counts.oversized +
          if s.maxPacketLen < (Flit.openRun taken).length then 0 else 1 }) ∨
    (run.length ≤ s.maxPacketLen ∧ f.last = false ∧ s.stepRouter =
      { s with ingress := s.ingress.pop, staged := run, phase := .collect }) ∨
    (run.length ≤ s.maxPacketLen ∧ f.last = true ∧ destOf run < s.nodes.length ∧ s.stepRouter =
      { s with ingress := s.ingress.pop, staged := run, phase := .forward (destOf run) }) ∨
    (run.length ≤ s.maxPacketLen ∧ f.last = true ∧ s.nodes.length ≤ destOf run ∧ s.stepRouter =
      { s with
        ingress := s.ingress.pop
        staged := []
        phase := .collect
        counts.unroutable := s.counts.unroutable + 1 }) := by
  intro run
  cases hphase : s.phase with
  | forward i => exact absurd hphase (hnone i)
  | drop =>
    obtain ⟨hstaged, hlong⟩ := h.of_drop hphase
    refine Or.inl ⟨?_, ?_⟩
    · show s.maxPacketLen < (Flit.openRun taken ++ [f]).length
      rw [List.length_append]
      omega
    · simp only [stepRouter, hphase, hpeek, if_pos hlong, ← hstaged]
      rfl
  | collect =>
    obtain ⟨hstaged, hfits⟩ := h.of_collect hphase
    have hstep : s.stepRouter = ({ s with ingress := s.ingress.pop } : Subnet).stepCollect f := by
      simp only [stepRouter, hphase, hpeek]
    rw [hstep]
    simp only [stepCollect, hstaged]
    rw [hstaged] at hfits
    by_cases hlong : s.maxPacketLen < run.length
    · rw [if_pos hlong, if_neg (Nat.not_lt.mpr hfits)]
      exact Or.inl ⟨hlong, rfl⟩
    · have hshort := Nat.not_lt.mp hlong
      rw [if_neg hlong]
      cases hlast : f.last with
      | false => exact Or.inr (Or.inl ⟨hshort, rfl, by rw [← hphase]; rfl⟩)
      | true =>
        rcases ({ s with ingress := s.ingress.pop } : Subnet).routeStaged_cases run with
          ⟨hdest, hroute⟩ | ⟨hdest, hroute⟩
        · exact Or.inr (Or.inr (Or.inl ⟨hshort, rfl, hdest, hroute⟩))
        · exact Or.inr (Or.inr (Or.inr ⟨hshort, rfl, hdest, by rw [← hphase]; exact hroute⟩))

/-- The router only looks at the ingress and at what it has in hand. -/
theorem Routes.take_frame (h : s.Routes taken) (hnone : ∀ i, s.phase ≠ .forward i)
    (hpeek : s.ingress.peek = some f) :
    ∃ staged phase counts, s.stepRouter =
      { s with ingress := s.ingress.pop, staged, phase, counts } := by
  rcases h.take_cases hnone hpeek with
    ⟨-, hstep⟩ | ⟨-, -, hstep⟩ | ⟨-, -, -, hstep⟩ | ⟨-, -, -, hstep⟩ <;>
    exact ⟨_, _, _, hstep⟩

/-- What the router has staged for a module after it has taken a flit is what the flit completes
for this module. -/
theorem Routes.take (h : s.Routes taken) (hnone : ∀ i, s.phase ≠ .forward i)
    (hpeek : s.ingress.peek = some f) :
    s.stepRouter.Routes (taken ++ [f]) ∧ ∀ i < s.nodes.length,
      deliveries s.maxPacketLen i taken ++ s.stepRouter.pendingFor i =
        deliveries s.maxPacketLen i (taken ++ [f]) := by
  simp only [deliveries_snoc]
  rcases h.take_cases hnone hpeek with
    ⟨hlong, hstep⟩ | ⟨hshort, hlast, hstep⟩ | ⟨hshort, hlast, hdest, hstep⟩ |
      ⟨hshort, hlast, hdest, hstep⟩
  · rw [hstep]
    refine ⟨?_, fun i _ => ?_⟩
    · unfold Routes
      cases hlast : f.last with
      | true => simp [Flit.openRun_snoc, hlast]
      | false => simpa [Flit.openRun_snoc, hlast] using hlong
    · rw [goesTo_of_long hlong, Bool.and_false]
      cases f.last <;> simp [pendingFor]
  · rw [hstep]
    refine ⟨?_, fun i _ => by simp [pendingFor, hlast]⟩
    unfold Routes
    simp only [Flit.openRun_snoc, hlast]
    exact ⟨rfl, hshort⟩
  · rw [hstep]
    refine ⟨?_, fun i _ => ?_⟩
    · unfold Routes
      simp only [Flit.openRun_snoc, hlast, if_true]
      exact ⟨hdest, trivial, Flit.isRun_openRun_snoc taken hlast⟩
    · rw [goesTo_of_short hshort]
      simp [pendingFor, hlast]
  · rw [hstep]
    refine ⟨?_, fun i hi => ?_⟩
    · unfold Routes
      simp [Flit.openRun_snoc, hlast]
    · have hne : destOf (Flit.openRun taken ++ [f]) ≠ i :=
        Nat.ne_of_gt (Nat.lt_of_lt_of_le hi hdest)
      rw [goesTo_of_short hshort]
      simp [pendingFor, hne]

/-! ## Handing a flit over -/

/-- The router hands a flit over if the module has room for it, and begins with
the next packet when that was the last one. -/
theorem stepForward_cases {s : Subnet} {i : Nat} {n : Node} {f : Flit} {rest : List Flit}
    (hn : s.nodes[i]? = some n) (hstaged : s.staged = f :: rest) :
    (n.module.input.ready = false ∧ s.stepForward i = s) ∨
    (n.module.input.ready = true ∧ s.stepForward i =
      { s.modifyModule i fun m => { m with input := m.input.push f } with
        staged := rest
        phase := if rest.isEmpty then .collect else s.phase
        counts.routed := s.counts.routed + if rest.isEmpty then 1 else 0 }) := by
  simp only [stepForward, hstaged, hn]
  cases hready : n.module.input.ready with
  | false => exact Or.inl ⟨rfl, rfl⟩
  | true =>
    refine Or.inr ⟨rfl, ?_⟩
    cases rest with
    | nil => rfl
    | cons g rest => rfl

/-- A flit that is handed over is the next one that was staged for the module. -/
theorem Routes.hand (h : s.Routes taken) {i : Nat} {n : Node} {rest : List Flit}
    (hphase : s.phase = .forward i) (hn : s.nodes[i]? = some n) (hstaged : s.staged = f :: rest)
    (hready : n.module.input.ready = true) :
    (s.stepForward i).Routes taken ∧ ∀ j,
      s.pendingFor j = (if i = j then [f] else []) ++ (s.stepForward i).pendingFor j := by
  obtain ⟨hi, hopen, hrun⟩ := h.of_forward hphase
  rw [hstaged] at hrun
  obtain ⟨hfull, -⟩ | ⟨-, hstep⟩ := stepForward_cases hn hstaged
  · rw [hready] at hfull
    cases hfull
  rw [hstep]
  refine ⟨?_, fun j => ?_⟩
  · unfold Routes
    rcases hrun.cons_cases with ⟨-, rfl⟩ | ⟨-, hrest⟩
    · simp [hopen]
    · simpa [hrest.ne_nil, hphase] using ⟨hi, hopen, hrest⟩
  · by_cases hij : i = j
    · subst hij
      cases rest <;> simp [pendingFor, hphase, hstaged]
    · cases rest <;> simp [pendingFor, hphase, hij]

/-- The router hands a flit over, or it takes one from the ingress, or none is there. -/
theorem stepRouter_cases (s : Subnet) :
    (∃ i, s.phase = .forward i ∧ s.stepRouter = s.stepForward i) ∨
    ((∀ i, s.phase ≠ .forward i) ∧
      ((∃ f, s.ingress.peek = some f) ∨ s.ingress.peek = none ∧ s.stepRouter = s)) := by
  cases hphase : s.phase with
  | forward i => exact Or.inl ⟨i, rfl, by simp only [stepRouter, hphase]⟩
  | collect =>
    refine Or.inr ⟨by simp, ?_⟩
    cases hpeek : s.ingress.peek with
    | none => exact Or.inr ⟨rfl, by simp only [stepRouter, hphase, hpeek]⟩
    | some f => exact Or.inl ⟨f, rfl⟩
  | drop =>
    refine Or.inr ⟨by simp, ?_⟩
    cases hpeek : s.ingress.peek with
    | none => exact Or.inr ⟨rfl, by simp only [stepRouter, hphase, hpeek]⟩
    | some f => exact Or.inl ⟨f, rfl⟩

end Subnet

end ProbeNet
