/-!
# The parts of a TOML text

Readers of the smallest parts of a TOML text: blanks, comments, line ends,
strings and keys.  A reader takes the characters that are left and returns
what it has read together with the characters behind it, or `none`.
-/

namespace ProbeNet

namespace Toml

/-- The characters that are left to read. -/
abbrev Input := List Char

abbrev Reader (α : Type) := Input → Option (α × Input)

/-! ## Blanks, line ends and comments -/

def isSpace (c : Char) : Bool := c = ' ' || c = '\t'

def skipSpaces (cs : Input) : Input := cs.dropWhile isSpace

/-- Reads a line end: a line feed, or a carriage return and a line feed. -/
def lineEnd? : Input → Option Input
  | '\n' :: cs => some cs
  | '\r' :: '\n' :: cs => some cs
  | _ => none

def isNonAscii (c : Char) : Bool := 0x80 ≤ c.toNat

def isCommentChar (c : Char) : Bool :=
  c = '\t' || (0x20 ≤ c.toNat && c.toNat ≤ 0x7e) || isNonAscii c

/-- Skips a comment, if there is one. -/
def skipComment : Input → Input
  | '#' :: cs => cs.dropWhile isCommentChar
  | cs => cs

/-- Reads what may follow the last part of a line: spaces, a comment, and the
end of the line or of the text. -/
def lineTail? (cs : Input) : Option Input :=
  match skipComment (skipSpaces cs) with
  | [] => some []
  | cs => lineEnd? cs

/-- Skips spaces, comments and line ends. -/
def skipLines (fuel : Nat) (cs : Input) : Input :=
  match fuel with
  | 0 => cs
  | fuel + 1 =>
    let rest := skipComment (skipSpaces cs)
    match lineEnd? rest with
    | some rest => skipLines fuel rest
    | none => rest

/-- Skips spaces, comments and line ends, as many as there are. -/
def skipAll (cs : Input) : Input := skipLines (cs.length + 1) cs

/-! ## Strings -/

/-- The value of hexadecimal digits, at least one of them. -/
def hexValue? (cs : List Char) : Option Nat :=
  if cs = [] then none
  else
    cs.foldlM (fun n c =>
      if c.isDigit then some (n * 16 + (c.toNat - '0'.toNat))
      else if 'a' ≤ c ∧ c ≤ 'f' then some (n * 16 + (c.toNat - 'a'.toNat + 10))
      else if 'A' ≤ c ∧ c ≤ 'F' then some (n * 16 + (c.toNat - 'A'.toNat + 10))
      else none) 0

/-- The character of `n` hexadecimal digits.  Surrogates are no characters. -/
def codePoint? (n : Nat) (cs : Input) : Option (Char × Input) := do
  if cs.length < n then none
  else
    let code ← hexValue? (cs.take n)
    if code.isValidChar then some (Char.ofNat code, cs.drop n) else none

/-- Reads the part of an escape sequence behind the backslash. -/
def escape? : Reader Char
  | 'b' :: cs => some ('\x08', cs)
  | 'f' :: cs => some ('\x0c', cs)
  | 'n' :: cs => some ('\n', cs)
  | 'r' :: cs => some ('\r', cs)
  | 't' :: cs => some ('\t', cs)
  | '"' :: cs => some ('"', cs)
  | '\\' :: cs => some ('\\', cs)
  | 'u' :: cs => codePoint? 4 cs
  | 'U' :: cs => codePoint? 8 cs
  | _ => none

/-- A character that may stand in a string as itself, delimiters apart. -/
def isStringChar (c : Char) : Bool := isCommentChar c

/-- Reads a basic string behind its opening quote. -/
def basicString (fuel : Nat) (acc : List Char) (cs : Input) : Option (String × Input) :=
  match fuel with
  | 0 => none
  | fuel + 1 =>
    match cs with
    | '"' :: rest => some (String.ofList acc.reverse, rest)
    | '\\' :: rest => do
      let (c, rest) ← escape? rest
      basicString fuel (c :: acc) rest
    | c :: rest => if isStringChar c then basicString fuel (c :: acc) rest else none
    | [] => none

/-- Reads a literal string behind its opening quote. -/
def literalString (acc : List Char) : Input → Option (String × Input)
  | '\'' :: rest => some (String.ofList acc.reverse, rest)
  | c :: rest => if isStringChar c then literalString (c :: acc) rest else none
  | [] => none

/-- Skips a line end that stands right behind the opening quotes. -/
def skipFirstLineEnd (cs : Input) : Input := (lineEnd? cs).getD cs

/-- Skips spaces and line ends, for a backslash at the end of a line. -/
def skipFold : Input → Input
  | ' ' :: cs => skipFold cs
  | '\t' :: cs => skipFold cs
  | '\n' :: cs => skipFold cs
  | '\r' :: '\n' :: cs => skipFold cs
  | cs => cs

/-- The text behind a backslash at the end of a line, if it is one. -/
def lineFold? (cs : Input) : Option Input := (lineEnd? (skipSpaces cs)).map skipFold

/-- The closing quotes of a string over several lines.  A run of three to five
quotes closes the string; those before the last three belong to it.  Returns
how many belong to it. -/
def closing? (quote : Char) (cs : Input) : Option (Nat × Input) :=
  let run := (cs.takeWhile (· = quote)).length
  if run < 3 then none
  else
    let used := min run 5
    some (used - 3, cs.drop used)

/-- Reads a basic string over several lines behind its opening quotes.  Line
ends are kept as line feeds. -/
def basicLines (fuel : Nat) (acc : List Char) (cs : Input) : Option (String × Input) :=
  match fuel with
  | 0 => none
  | fuel + 1 =>
    match cs with
    | '"' :: rest =>
      match closing? '"' cs with
      | some (n, rest) => some (String.ofList (List.replicate n '"' ++ acc).reverse, rest)
      | none => basicLines fuel ('"' :: acc) rest
    | '\\' :: rest =>
      match lineFold? rest with
      | some rest => basicLines fuel acc rest
      | none => do
        let (c, rest) ← escape? rest
        basicLines fuel (c :: acc) rest
    | '\n' :: rest => basicLines fuel ('\n' :: acc) rest
    | '\r' :: '\n' :: rest => basicLines fuel ('\n' :: acc) rest
    | c :: rest => if isStringChar c then basicLines fuel (c :: acc) rest else none
    | [] => none

/-- Reads a literal string over several lines behind its opening quotes. -/
def literalLines (fuel : Nat) (acc : List Char) (cs : Input) : Option (String × Input) :=
  match fuel with
  | 0 => none
  | fuel + 1 =>
    match cs with
    | '\'' :: rest =>
      match closing? '\'' cs with
      | some (n, rest) => some (String.ofList (List.replicate n '\'' ++ acc).reverse, rest)
      | none => literalLines fuel ('\'' :: acc) rest
    | '\n' :: rest => literalLines fuel ('\n' :: acc) rest
    | '\r' :: '\n' :: rest => literalLines fuel ('\n' :: acc) rest
    | c :: rest => if isStringChar c then literalLines fuel (c :: acc) rest else none
    | [] => none

def string? : Reader String
  | '"' :: '"' :: '"' :: cs => basicLines (cs.length + 1) [] (skipFirstLineEnd cs)
  | '\'' :: '\'' :: '\'' :: cs => literalLines (cs.length + 1) [] (skipFirstLineEnd cs)
  | '"' :: cs => basicString (cs.length + 1) [] cs
  | '\'' :: cs => literalString [] cs
  | _ => none

/-! ## Keys -/

/-- A character of a key without quotes. -/
def isBareKeyChar (c : Char) : Bool := c.isAlphanum || c = '-' || c = '_'

def simpleKey? : Reader String
  | '"' :: cs => basicString (cs.length + 1) [] cs
  | '\'' :: cs => literalString [] cs
  | cs =>
    match cs.takeWhile isBareKeyChar with
    | [] => none
    | key => some (String.ofList key, cs.dropWhile isBareKeyChar)

/-- How deep values may be nested, and how many parts a key may have. -/
def nestingLimit : Nat := 80

/-- Reads the parts of a dotted key, spaces around each of them. -/
def keyParts (fuel : Nat) (cs : Input) : Option (List String × Input) :=
  match fuel with
  | 0 => none
  | fuel + 1 => do
    let (key, cs) ← simpleKey? (skipSpaces cs)
    match skipSpaces cs with
    | '.' :: rest => do
      let (keys, rest) ← keyParts fuel rest
      some (key :: keys, rest)
    | rest => some ([key], rest)

/-- Reads a key: the path to it, and its last part. -/
def key? (cs : Input) : Option ((List String × String) × Input) := do
  let (parts, rest) ← keyParts (cs.length + 1) cs
  if parts.length < nestingLimit then
    let last ← parts.getLast?
    some ((parts.dropLast, last), rest)
  else none

end Toml

end ProbeNet
