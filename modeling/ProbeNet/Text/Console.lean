/-!
# Consoles

What a program writes while it runs.  The two streams are kept apart, each
in the order in which it was written.
-/

namespace ProbeNet

/-- The two output streams of a program. -/
structure Console where
  /-- The results. -/
  out : String := ""
  /-- Remarks and failures. -/
  err : String := ""
  deriving DecidableEq, Repr

namespace Console

def append (a b : Console) : Console := { out := a.out ++ b.out, err := a.err ++ b.err }

instance : Append Console := ⟨append⟩

def line (text : String) : Console := { out := text ++ "\n" }

def lines (texts : List String) : Console := { out := String.join (texts.map (· ++ "\n")) }

def remark (text : String) : Console := { err := text ++ "\n" }

@[simp] theorem append_empty (a : Console) : a ++ ({} : Console) = a := by
  show Console.append a {} = a
  simp [append]

@[simp] theorem empty_append (a : Console) : ({} : Console) ++ a = a := by
  show Console.append {} a = a
  simp [append]

end Console

end ProbeNet
