import Mathlib.Data.List.Induction
import ProbeNet.Proofs.Packet.Codec

/-!
# Runs in a stream of flits

A stream of flits is a sequence of runs, each up to a flit that is marked
last, and an open run behind them.  `Flit.runs` and `Flit.openRun` take a
stream apart in this way, and `flatten_runs` says that nothing is lost.

* Growing streams.  `runs_snoc` and `openRun_snoc` follow a stream flit by
  flit, and `runs_prefix` says that a longer stream only adds runs.
* Whole runs.  `IsRun` singles out the streams that are one run.  A stream
  put together from whole runs is taken apart into the same ones.
* Packets.  The flits of a packet are one run, and `Packet.ofStream` reads
  the packets of a stream back.
-/

namespace ProbeNet

namespace Flit

/-- The complete runs of a stream behind `held`, the beginning of the first. -/
def runsAfter : List Flit → List Flit → List (List Flit)
  | _, [] => []
  | held, f :: fs =>
    if f.last then (held ++ [f]) :: runsAfter [] fs else runsAfter (held ++ [f]) fs

/-- What a stream behind `held` leaves of a run that is not complete. -/
def openAfter : List Flit → List Flit → List Flit
  | held, [] => held
  | held, f :: fs => if f.last then openAfter [] fs else openAfter (held ++ [f]) fs

/-- The complete runs of a stream. -/
def runs (fs : List Flit) : List (List Flit) := runsAfter [] fs

/-- The run at the end of a stream that is not complete yet. -/
def openRun (fs : List Flit) : List Flit := openAfter [] fs

@[simp] theorem runs_nil : runs [] = [] := rfl

@[simp] theorem openRun_nil : openRun [] = [] := rfl

theorem runsAfter_append (held xs ys : List Flit) :
    runsAfter held (xs ++ ys) = runsAfter held xs ++ runsAfter (openAfter held xs) ys := by
  induction xs generalizing held with
  | nil => simp [runsAfter, openAfter]
  | cons f xs ih =>
    simp only [List.cons_append, runsAfter, openAfter]
    split
    · simp [ih]
    · exact ih _

theorem openAfter_append (held xs ys : List Flit) :
    openAfter held (xs ++ ys) = openAfter (openAfter held xs) ys := by
  induction xs generalizing held with
  | nil => rfl
  | cons f xs ih =>
    simp only [List.cons_append, openAfter]
    split
    · exact ih _
    · exact ih _

theorem runs_append (xs ys : List Flit) :
    runs (xs ++ ys) = runs xs ++ runsAfter (openRun xs) ys := runsAfter_append [] xs ys

theorem openRun_append (xs ys : List Flit) :
    openRun (xs ++ ys) = openAfter (openRun xs) ys := openAfter_append [] xs ys

/-- Behind a stream that no run is open in, the runs are those of what follows. -/
theorem runs_append_of_closed {xs : List Flit} (h : openRun xs = []) (ys : List Flit) :
    runs (xs ++ ys) = runs xs ++ runs ys := by
  rw [runs_append, h]
  rfl

theorem openRun_append_of_closed {xs : List Flit} (h : openRun xs = []) (ys : List Flit) :
    openRun (xs ++ ys) = openRun ys := by
  rw [openRun_append, h]
  rfl

/-! ## Growing streams -/

/-- A further flit completes the open run or becomes part of it. -/
theorem runs_snoc (xs : List Flit) (f : Flit) :
    runs (xs ++ [f]) = if f.last then runs xs ++ [openRun xs ++ [f]] else runs xs := by
  rw [runs_append]
  cases h : f.last <;> simp [runsAfter, h]

theorem openRun_snoc (xs : List Flit) (f : Flit) :
    openRun (xs ++ [f]) = if f.last then [] else openRun xs ++ [f] := by
  rw [openRun_append]
  cases h : f.last <;> simp [openAfter, h]

theorem flatten_runsAfter (held fs : List Flit) :
    (runsAfter held fs).flatten ++ openAfter held fs = held ++ fs := by
  induction fs generalizing held with
  | nil => simp [runsAfter, openAfter]
  | cons f fs ih =>
    simp only [runsAfter, openAfter]
    split
    · simp [ih]
    · simp [ih]

/-- The runs of a stream and the open run behind them are the stream. -/
theorem flatten_runs (fs : List Flit) : (runs fs).flatten ++ openRun fs = fs :=
  flatten_runsAfter [] fs

theorem runs_prefix {xs ys : List Flit} (h : xs <+: ys) : runs xs <+: runs ys := by
  obtain ⟨zs, rfl⟩ := h
  rw [runs_append]
  exact List.prefix_append _ _

/-- Each flit that is marked last ends a run. -/
theorem length_runs (fs : List Flit) : (runs fs).length = fs.countP last := by
  induction fs using List.reverseRecOn with
  | nil => rfl
  | append_singleton fs f ih =>
    rw [runs_snoc, List.countP_append, ← ih]
    cases hlast : f.last <;> simp [hlast]

/-- No flit of an open run is marked last. -/
theorem last_of_mem_openRun {fs : List Flit} {f : Flit} (h : f ∈ openRun fs) :
    f.last = false := by
  suffices hind : ∀ held, (∀ g ∈ held, g.last = false) →
      ∀ g ∈ openAfter held fs, g.last = false from hind [] (by simp) f h
  clear h
  induction fs with
  | nil => exact fun held hheld => hheld
  | cons x fs ih =>
    intro held hheld
    simp only [openAfter]
    split
    · exact ih [] (by simp)
    · rename_i hx
      refine ih _ fun g hg => ?_
      rcases List.mem_append.mp hg with hg | hg
      · exact hheld g hg
      · rw [List.mem_singleton.mp hg]
        simpa using hx

/-- A stream has no open run when its latest flit, if there is any, is marked
last. -/
theorem openRun_eq_nil_iff (fs : List Flit) :
    openRun fs = [] ↔ ∀ f ∈ fs.getLast?, f.last = true := by
  rcases List.eq_nil_or_concat fs with rfl | ⟨xs, f, rfl⟩
  · simp
  · rw [List.concat_eq_append, openRun_snoc]
    cases h : f.last <;> simp [h]

/-- Flits that end no run go on with the open one. -/
theorem openRun_append_of_unmarked (xs : List Flit) {ys : List Flit}
    (h : ∀ f ∈ ys, f.last = false) : openRun (xs ++ ys) = openRun xs ++ ys := by
  induction ys using List.reverseRecOn with
  | nil => simp
  | append_singleton ys f ih =>
    rw [← List.append_assoc, openRun_snoc, h f (by simp), ih fun g hg => h g (by simp [hg])]
    simp

theorem openRun_of_unmarked {fs : List Flit} (h : ∀ f ∈ fs, f.last = false) : openRun fs = fs :=
  openRun_append_of_unmarked [] h

theorem runs_of_unmarked {fs : List Flit} (h : ∀ f ∈ fs, f.last = false) : runs fs = [] := by
  induction fs using List.reverseRecOn with
  | nil => rfl
  | append_singleton xs f ih =>
    rw [runs_snoc, h f (by simp), ih fun g hg => h g (by simp [hg])]
    rfl

/-! ## Whole runs -/

/-- The flits are one complete run. -/
def IsRun (r : List Flit) : Prop := runs r = [r]

theorem IsRun.openRun {r : List Flit} (h : IsRun r) : openRun r = [] := by
  have hflat := flatten_runs r
  rw [show runs r = [r] from h] at hflat
  simpa using hflat

theorem IsRun.ne_nil {r : List Flit} (h : IsRun r) : r ≠ [] := by
  rintro rfl
  simp [IsRun] at h

theorem IsRun.runs_append {r : List Flit} (h : IsRun r) (ys : List Flit) :
    runs (r ++ ys) = r :: runs ys := by
  rw [runs_append_of_closed h.openRun, show runs r = [r] from h]
  rfl

theorem IsRun.openRun_append {r : List Flit} (h : IsRun r) (ys : List Flit) :
    Flit.openRun (r ++ ys) = Flit.openRun ys := openRun_append_of_closed h.openRun ys

theorem runs_flatten_append {rs : List (List Flit)} (h : ∀ r ∈ rs, IsRun r) (ys : List Flit) :
    runs (rs.flatten ++ ys) = rs ++ runs ys := by
  induction rs with
  | nil => simp
  | cons r rs ih =>
    rw [List.flatten_cons, List.append_assoc, (h r (by simp)).runs_append,
      ih fun r hr => h r (by simp [hr])]
    rfl

theorem openRun_flatten_append {rs : List (List Flit)} (h : ∀ r ∈ rs, IsRun r)
    (ys : List Flit) : openRun (rs.flatten ++ ys) = openRun ys := by
  induction rs with
  | nil => simp
  | cons r rs ih =>
    rw [List.flatten_cons, List.append_assoc, (h r (by simp)).openRun_append,
      ih fun r hr => h r (by simp [hr])]

/-- A stream put together from whole runs is taken apart into them. -/
theorem runs_flatten {rs : List (List Flit)} (h : ∀ r ∈ rs, IsRun r) : runs rs.flatten = rs := by
  simpa using runs_flatten_append h []

theorem openRun_flatten {rs : List (List Flit)} (h : ∀ r ∈ rs, IsRun r) :
    openRun rs.flatten = [] := by
  simpa using openRun_flatten_append h []

/-- An open run followed by a flit that is marked last is a whole run. -/
theorem isRun_snoc {xs : List Flit} {f : Flit} (hxs : ∀ g ∈ xs, g.last = false)
    (hf : f.last = true) : IsRun (xs ++ [f]) := by
  suffices hind : ∀ held, runsAfter held (xs ++ [f]) = [held ++ xs ++ [f]] from hind []
  induction xs with
  | nil => simp [runsAfter, hf]
  | cons x xs ih =>
    intro held
    simp only [List.cons_append, runsAfter, hxs x (by simp)]
    simpa using ih (fun g hg => hxs g (by simp [hg])) (held ++ [x])

theorem isRun_openRun_snoc (fs : List Flit) {f : Flit} (hf : f.last = true) :
    IsRun (openRun fs ++ [f]) := isRun_snoc (fun _ hg => last_of_mem_openRun hg) hf

theorem isRun_of_mem_runs {fs r : List Flit} (h : r ∈ runs fs) : IsRun r := by
  induction fs using List.reverseRecOn with
  | nil => simp at h
  | append_singleton xs f ih =>
    rw [runs_snoc] at h
    split at h
    · rename_i hf
      rcases List.mem_append.mp h with hr | hr
      · exact ih hr
      · rw [List.mem_singleton.mp hr]
        exact isRun_openRun_snoc xs hf
    · exact ih h

/-- A run is made of unmarked flits and one marked flit behind them. -/
theorem isRun_iff {r : List Flit} :
    IsRun r ↔ ∃ xs f, r = xs ++ [f] ∧ f.last = true ∧ ∀ g ∈ xs, g.last = false := by
  constructor
  · intro h
    rcases List.eq_nil_or_concat r with rfl | ⟨xs, f, rfl⟩
    · exact absurd rfl h.ne_nil
    rw [List.concat_eq_append] at h ⊢
    have hlast : f.last = true := by
      simpa using (openRun_eq_nil_iff _).mp h.openRun
    have hruns : runs xs ++ [openRun xs ++ [f]] = [xs ++ [f]] := by
      rw [← show runs (xs ++ [f]) = [xs ++ [f]] from h, runs_snoc, if_pos hlast]
    have hopen : openRun xs = xs := by
      have hlen : (runs xs).length = 0 := by
        simpa using congrArg List.length hruns
      have hflat := flatten_runs xs
      rw [List.length_eq_zero_iff.mp hlen] at hflat
      exact hflat
    exact ⟨xs, f, rfl, hlast, fun g hg => last_of_mem_openRun (hopen ▸ hg)⟩
  · rintro ⟨xs, f, rfl, hlast, hxs⟩
    exact isRun_snoc hxs hlast

/-- A run ends the packet that was open in front of it. -/
theorem IsRun.mem_runs_append {r : List Flit} (h : IsRun r) (xs : List Flit) :
    Flit.openRun xs ++ r ∈ runs (xs ++ r) := by
  obtain ⟨ys, f, rfl, hlast, hys⟩ := isRun_iff.mp h
  rw [← List.append_assoc, runs_snoc, hlast, if_pos rfl, openRun_append_of_unmarked xs hys,
    ← List.append_assoc]
  exact List.mem_append_right _ (List.mem_singleton_self _)

/-- The first flit of a run ends it, or the others are a run again. -/
theorem IsRun.cons_cases {f : Flit} {r : List Flit} (h : IsRun (f :: r)) :
    f.last = true ∧ r = [] ∨ f.last = false ∧ IsRun r := by
  obtain ⟨xs, g, heq, hlast, hxs⟩ := isRun_iff.mp h
  cases xs with
  | nil =>
    obtain ⟨rfl, rfl⟩ := List.cons.inj heq
    exact Or.inl ⟨hlast, rfl⟩
  | cons x xs =>
    obtain ⟨rfl, rfl⟩ := List.cons.inj heq
    exact Or.inr ⟨hxs f (by simp), isRun_snoc (fun g hg => hxs g (by simp [hg])) hlast⟩

theorem IsRun.cons {f : Flit} {r : List Flit} (hf : f.last = false) (h : IsRun r) :
    IsRun (f :: r) := by
  obtain ⟨xs, g, rfl, hlast, hxs⟩ := isRun_iff.mp h
  rw [← List.cons_append]
  refine isRun_snoc (fun x hx => ?_) hlast
  rcases List.mem_cons.mp hx with rfl | hx
  · exact hf
  · exact hxs x hx

/-- A stream with a flit that is marked last begins with a run. -/
theorem exists_isRun_prefix {fs : List Flit} (h : ∃ f ∈ fs, f.last = true) :
    ∃ r, IsRun r ∧ r <+: fs := by
  induction fs with
  | nil => simp at h
  | cons f fs ih =>
    cases hf : f.last with
    | true =>
      have hrun : IsRun ([] ++ [f]) := isRun_snoc (by simp) hf
      exact ⟨[f], hrun, fs, rfl⟩
    | false =>
      have hrest : ∃ g ∈ fs, g.last = true := by simpa [hf] using h
      obtain ⟨r, hr, hprefix⟩ := ih hrest
      exact ⟨f :: r, hr.cons hf, List.prefix_cons_inj f |>.mpr hprefix⟩

theorem isRun_ofWords {ws : List Word} (h : ws ≠ []) : IsRun (ofWords ws) := by
  fun_induction ofWords ws with
  | case1 => exact absurd rfl h
  | case2 w => rfl
  | case3 w ws hws ih =>
    have hne : ws ≠ [] := by
      rintro rfl
      exact hws rfl
    exact (ih hne).cons rfl

end Flit

/-! ## Packets -/

namespace Packet

/-- The packets of a stream.  A run that is no packet is left out. -/
def ofStream (fs : List Flit) : List Packet :=
  (Flit.runs fs).filterMap fun r => (ofFlits r).toOption

@[simp] theorem ofStream_nil : ofStream [] = [] := rfl

/-- A flit that ends a run ends a packet, if the run is one. -/
theorem ofStream_snoc (fs : List Flit) (f : Flit) :
    ofStream (fs ++ [f]) =
      if f.last then ofStream fs ++ (ofFlits (Flit.openRun fs ++ [f])).toOption.toList
      else ofStream fs := by
  unfold ofStream
  rw [Flit.runs_snoc]
  split
  · rw [List.filterMap_append]
    cases h : (ofFlits (Flit.openRun fs ++ [f])).toOption <;> simp [h]
  · rfl

/-- A further run is a further packet, if it is one. -/
theorem ofStream_of_runs_snoc {xs ys run : List Flit} (h : Flit.runs ys = Flit.runs xs ++ [run]) :
    ofStream ys = ofStream xs ++ (ofFlits run).toOption.toList := by
  rw [ofStream, h, List.filterMap_append]
  cases hrun : (ofFlits run).toOption <;> simp [ofStream, hrun]

theorem ofStream_prefix {xs ys : List Flit} (h : xs <+: ys) : ofStream xs <+: ofStream ys :=
  (Flit.runs_prefix h).filterMap _

/-- The flits of packets, one packet behind the other. -/
def stream (ps : List Packet) : List Flit := ps.flatMap toFlits

theorem isRun_toFlits (p : Packet) : Flit.IsRun p.toFlits :=
  Flit.isRun_ofWords (by simp [encode])

@[simp] theorem stream_append (ps qs : List Packet) : stream (ps ++ qs) = stream ps ++ stream qs :=
  List.flatMap_append

@[simp] theorem stream_singleton (p : Packet) : stream [p] = p.toFlits := by
  simp [stream]

theorem stream_prefix {ps qs : List Packet} (h : ps <+: qs) : stream ps <+: stream qs := by
  obtain ⟨rest, rfl⟩ := h
  rw [stream_append]
  exact List.prefix_append _ _

theorem runs_stream (ps : List Packet) : Flit.runs (stream ps) = ps.map toFlits := by
  rw [stream, List.flatMap_def]
  refine Flit.runs_flatten fun r hr => ?_
  obtain ⟨p, _, rfl⟩ := List.mem_map.mp hr
  exact isRun_toFlits p

theorem openRun_stream (ps : List Packet) : Flit.openRun (stream ps) = [] := by
  rw [stream, List.flatMap_def]
  refine Flit.openRun_flatten fun r hr => ?_
  obtain ⟨p, _, rfl⟩ := List.mem_map.mp hr
  exact isRun_toFlits p

theorem countP_stream (ps : List Packet) : (stream ps).countP Flit.last = ps.length := by
  rw [← Flit.length_runs, runs_stream, List.length_map]

/-- The runs that begin a stream of packets are packets of it. -/
theorem exists_of_mem_runs {ps : List Packet} {fs r : List Flit} (h : fs <+: stream ps)
    (hr : r ∈ Flit.runs fs) : ∃ p ∈ ps, ofFlits r = .ok p ∧ p.toFlits = r := by
  have hmem := (Flit.runs_prefix h).subset hr
  rw [runs_stream] at hmem
  obtain ⟨p, hp, rfl⟩ := List.mem_map.mp hmem
  exact ⟨p, hp, ofFlits_toFlits p, rfl⟩

/-- Reading a stream of packets gives the packets back. -/
@[simp] theorem ofStream_stream (ps : List Packet) : ofStream (stream ps) = ps := by
  rw [ofStream, runs_stream, List.filterMap_map]
  simp [Function.comp_def, Except.toOption, decode_encode]

end Packet

end ProbeNet
