import ProbeNet.Text.Numeral

/-!
# JSON texts

Values of the kinds that the commands report, and their layout over several
lines: every member and every element starts a line of its own, two blanks
deeper than the bracket that it stands in.  What is empty stays on one line.

The names of members are words of this library; none of them has a character
that would need to be escaped.
-/

namespace ProbeNet

inductive JsonTree where
  | number (n : Nat)
  | boolean (b : Bool)
  | array (items : List JsonTree)
  | object (members : List (String × JsonTree))

namespace JsonTree

def blanks (n : Nat) : String := String.ofList (List.replicate n ' ')

/-- Puts items on lines of their own between two brackets. -/
def bracket (indent : Nat) (opening closing : String) : List String → String
  | [] => opening ++ closing
  | items =>
    let inner := items.map fun item => blanks (indent + 2) ++ item
    opening ++ "\n" ++ ",\n".intercalate inner ++ "\n" ++ blanks indent ++ closing

mutual

/-- The text of a value whose lines are indented by so many blanks, except for
the first one. -/
def layout (indent : Nat) : JsonTree → String
  | number n => Numeral.decimal n
  | boolean b => if b then "true" else "false"
  | array items => bracket indent "[" "]" (layoutItems (indent + 2) items)
  | object members => bracket indent "\x7b" "\x7d" (layoutMembers (indent + 2) members)

def layoutItems (indent : Nat) : List JsonTree → List String
  | [] => []
  | item :: items => layout indent item :: layoutItems indent items

def layoutMembers (indent : Nat) : List (String × JsonTree) → List String
  | [] => []
  | (name, value) :: members =>
    ("\"" ++ name ++ "\": " ++ layout indent value) :: layoutMembers indent members

end

def render (t : JsonTree) : String := layout 0 t

end JsonTree

end ProbeNet
