/-!
# TOML values

The values of a TOML document.  A table remembers how it came to be, because
that decides who may still add to it: a table written in braces is closed, a
table under its own header takes no second header, and a table that exists
only because a longer name passed through it may still get its own header or
further dotted keys.  An array remembers whether it is made of `[[...]]`
headers, because only such an array grows.

Numbers with a fraction and dates are told from the other values, but what
they say is not kept.
-/

namespace ProbeNet

namespace Toml

/-- How a table came to be. -/
inductive TableForm where
  /-- Written in braces. -/
  | inline
  /-- Under a header of its own, or the document itself. -/
  | header
  /-- Passed through by a longer header. -/
  | implicit
  /-- Passed through by a dotted key. -/
  | dotted
  deriving DecidableEq, Repr

inductive Value where
  | string (s : String)
  | integer (i : Int)
  | float
  | boolean (b : Bool)
  | datetime
  /-- `ofTables` says that the array is made of headers. -/
  | array (ofTables : Bool) (elements : List Value)
  | table (form : TableForm) (entries : List (String × Value))
  deriving Repr

/-- The entries of a table, in the order in which their keys came. -/
abbrev Entries := List (String × Value)

namespace Entries

def get? (es : Entries) (key : String) : Option Value := es.lookup key

def set (key : String) (v : Value) : Entries → Entries
  | [] => [(key, v)]
  | e :: es => if e.1 == key then (key, v) :: es else e :: set key v es

end Entries

/-! ## Adding to a document -/

/-- Changes the table at the end of a path of keys.  Tables that are missing
on the way are made, as `fresh` tables.  The way leads through the last
element of an array of tables.  It ends at other values and at tables in
braces; a dotted key also must not pass a table with a header. -/
def modifyTable (fresh : TableForm) (change : TableForm → Entries → Option Entries) :
    List String → TableForm → Entries → Option Entries
  | [], form, es => change form es
  | key :: path, _, es => do
    let v ←
      match es.get? key with
      | none => (modifyTable fresh change path fresh []).map (Value.table fresh)
      | some (.table form inner) =>
        if form = .inline ∨ fresh = .dotted ∧ form = .header then none
        else (modifyTable fresh change path form inner).map (Value.table form)
      | some (.array true elements) =>
        match elements.getLast? with
        | some (.table form inner) => do
          let inner ← modifyTable fresh change path form inner
          some (Value.array true (elements.dropLast ++ [.table form inner]))
        | _ => none
      | some _ => none
    some (es.set key v)

/-- Adds an entry to a table, which must not have one of that key. -/
def addEntry (key : String) (v : Value) (es : Entries) : Option Entries :=
  match es.get? key with
  | some _ => none
  | none => some (es ++ [(key, v)])

/-- Adds a value under a dotted key.  A key of several parts ends in a table
that dotted keys have made; only those are theirs to extend. -/
def addKeyValue (path : List String) (key : String) (v : Value) (form : TableForm)
    (es : Entries) : Option Entries :=
  modifyTable .dotted
    (fun inner es => if path.isEmpty || inner = .dotted then addEntry key v es else none)
    path form es

def openTable (key : String) (es : Entries) : Option Entries :=
  match es.get? key with
  | none => some (es ++ [(key, .table .header [])])
  | some (.table .implicit inner) => some (es.set key (.table .header inner))
  | some _ => none

/-- Adds an element to the array of tables of a header in its parent table. -/
def openElement (key : String) (es : Entries) : Option Entries :=
  match es.get? key with
  | none => some (es ++ [(key, .array true [.table .header []])])
  | some (.array true elements) =>
    some (es.set key (.array true (elements ++ [.table .header []])))
  | some _ => none

end Toml

end ProbeNet
