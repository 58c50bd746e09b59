import ProbeNet.Toml.Scalar

/-!
# TOML documents

Reading a whole document.  `parse` returns the entries of the document's
table, or `none` for a text that is no TOML document or that defines
something twice.
-/

namespace ProbeNet

namespace Toml

/-! ## Values -/

/-- Reads the elements of an array behind its opening bracket.  A comma may
stand behind the last one. -/
def arrayElements (element : Reader Value) (fuel : Nat) (cs : Input) :
    Option (List Value × Input) :=
  match fuel with
  | 0 => none
  | fuel + 1 =>
    match skipAll cs with
    | ']' :: rest => some ([], rest)
    | cs => do
      let (v, cs) ← element cs
      match skipAll cs with
      | ',' :: rest => do
        let (vs, rest) ← arrayElements element fuel rest
        some (v :: vs, rest)
      | ']' :: rest => some ([v], rest)
      | _ => none

def keyValue? (value : Reader Value) (cs : Input) :
    Option ((List String × String × Value) × Input) := do
  let ((path, key), cs) ← key? cs
  let cs ← char? '=' cs
  let (v, cs) ← value (skipSpaces cs)
  some ((path, key, v), cs)

/-- Reads the entries of a table in braces behind its opening brace.  No comma
stands behind the last one. -/
def inlineEntries (value : Reader Value) (fuel : Nat) (es : Entries) (cs : Input) :
    Option (Entries × Input) :=
  match fuel with
  | 0 => none
  | fuel + 1 => do
    let ((path, key, v), cs) ← keyValue? value cs
    let es ← addKeyValue path key v .inline es
    match skipSpaces cs with
    | ',' :: rest => inlineEntries value fuel es rest
    | '}' :: rest => some (es, rest)
    | _ => none

/-- Reads a value that is nested less than `depth` deep. -/
def value? (depth : Nat) (cs : Input) : Option (Value × Input) :=
  match cs with
  | '[' :: rest =>
    match depth with
    | 0 => none
    | depth + 1 => do
      let (vs, rest) ← arrayElements (value? depth) (rest.length + 1) rest
      some (.array false vs, rest)
  | '{' :: rest =>
    match depth with
    | 0 => none
    | depth + 1 =>
      match skipSpaces rest with
      | '}' :: rest => some (.table .inline [], rest)
      | rest => do
        let (es, rest) ← inlineEntries (value? depth) (rest.length + 1) [] rest
        some (.table .inline es, rest)
  | '"' :: _ | '\'' :: _ => (string? cs).map fun (s, rest) => (.string s, rest)
  | 't' :: 'r' :: 'u' :: 'e' :: rest => some (.boolean true, rest)
  | 'f' :: 'a' :: 'l' :: 's' :: 'e' :: rest => some (.boolean false, rest)
  | _ => number? cs

/-! ## Documents -/

/-- A document as far as it has been read: its entries, and the path of the
table that entries without a header of their own belong to. -/
structure Partial where
  entries : Entries := []
  path : List String := []

namespace Partial

/-- Adds a value under a dotted key to the table in hand. -/
def addKeyValue (d : Partial) (path : List String) (key : String) (v : Value) : Option Partial := do
  let entries ← modifyTable .implicit (Toml.addKeyValue path key v) d.path .header d.entries
  some { d with entries }

def openTable (d : Partial) (path : List String) (key : String) : Option Partial := do
  let entries ← modifyTable .implicit (fun _ es => Toml.openTable key es) path .header d.entries
  some { entries, path := path ++ [key] }

def openElement (d : Partial) (path : List String) (key : String) : Option Partial := do
  let entries ← modifyTable .implicit (fun _ es => Toml.openElement key es) path .header d.entries
  some { entries, path := path ++ [key] }

end Partial

/-- Reads one line that starts with something else than a blank. -/
def line? (d : Partial) (cs : Input) : Option (Partial × Input) :=
  match cs with
  | '[' :: '[' :: rest => do
    let ((path, key), rest) ← key? rest
    let rest ← (char? ']' rest).bind (char? ']')
    let rest ← lineTail? rest
    let d ← d.openElement path key
    some (d, rest)
  | '[' :: rest => do
    let ((path, key), rest) ← key? rest
    let rest ← char? ']' rest
    let rest ← lineTail? rest
    let d ← d.openTable path key
    some (d, rest)
  | _ => do
    let ((path, key, v), rest) ← keyValue? (value? (nestingLimit - 1)) cs
    let rest ← lineTail? rest
    let d ← d.addKeyValue path key v
    some (d, rest)

def lines (fuel : Nat) (d : Partial) (cs : Input) : Option Partial :=
  match fuel with
  | 0 => none
  | fuel + 1 =>
    match skipAll cs with
    | [] => some d
    | cs => do
      let (d, rest) ← line? d cs
      lines fuel d rest

def skipMark : Input → Input
  | '\ufeff' :: cs => cs
  | cs => cs

def parse (text : String) : Option Entries :=
  let cs := skipMark text.toList
  (lines (cs.length + 1) {} cs).map Partial.entries

end Toml

end ProbeNet
