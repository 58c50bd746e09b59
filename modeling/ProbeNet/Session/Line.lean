/-!
# Waiting lines

Places that are given out in the order in which they are asked for.  A line
does not know how many places there are; who asks says how many are not
taken.  A place that becomes free while somebody waits is kept for the first
one in the line, so nobody who comes later gets it.
-/

namespace ProbeNet

/-- Those who want a place and have none yet. -/
structure Line (κ : Type) where
  /-- Those for whom a place is kept. -/
  called : List κ := []
  /-- Those who wait, the first one first. -/
  waiting : List κ := []
  deriving DecidableEq, Repr

namespace Line

variable {κ : Type} [DecidableEq κ]

/-- Everybody in the line, those with a place kept for them first. -/
def members (l : Line κ) : List κ := l.called ++ l.waiting

/-- Asks for a place when `room` places are not taken, the kept ones among
them.  Returns whether `k` has one now; otherwise `k` is in the line. -/
def enter (l : Line κ) (room : Nat) (k : κ) : Line κ × Bool :=
  if k ∈ l.called then ({ l with called := l.called.erase k }, true)
  else if k ∈ l.waiting then (l, false)
  else if l.called.length < room then (l, true)
  else ({ l with waiting := l.waiting ++ [k] }, false)

/-- A place has become free.  Returns for whom it is kept from now on. -/
def vacate (l : Line κ) : Line κ × Option κ :=
  match l.waiting with
  | [] => (l, none)
  | k :: rest => ({ called := l.called ++ [k], waiting := rest }, some k)

/-- Takes `k` out of the line.  Returns who gets the place that was kept for
`k`, if one was. -/
def withdraw (l : Line κ) (k : κ) : Line κ × Option κ :=
  if k ∈ l.called then vacate { l with called := l.called.erase k }
  else ({ l with waiting := l.waiting.erase k }, none)

/-- Nobody who finds others waiting gets a place before them. -/
theorem enter_eq_false {l : Line κ} {room : Nat} {k : κ} (called : k ∉ l.called)
    (full : room ≤ l.called.length) : (l.enter room k).2 = false := by
  simp only [enter]
  grind

omit [DecidableEq κ] in
/-- A place that becomes free is kept for the first who waits. -/
theorem vacate_cons (called rest : List κ) (k : κ) :
    vacate ⟨called, k :: rest⟩ = (⟨called ++ [k], rest⟩, some k) := rfl

end Line

end ProbeNet
