import SnippetRunner.Toml.Quoted
import SnippetRunner.Toml.Scalar

/-!
# Reading TOML documents

A document is a sequence of lines that open a table or give a key its value. A text that is no
document is refused as a whole, without a reason.
-/

namespace SnippetRunner.Toml

/-- How deep arrays and inline tables may be nested. -/
def maxDepth : Nat := 80

/-- What follows the blanks at the front, on the same line. -/
def skipSpaces (cs : List Char) : List Char := cs.dropWhile fun c => c == ' ' || c == '\t'

/-- What follows a comment at the front, if one is there; the line end stays. -/
def skipComment? (cs : List Char) : Option (List Char) :=
  match cs with
  | '#' :: r =>
    match r.dropWhile isPlain with
    | [] => some []
    | '\n' :: rest => some ('\n' :: rest)
    | '\r' :: '\n' :: rest => some ('\r' :: '\n' :: rest)
    | _ => none
  | r => some r

/-- What follows blanks, comments and line ends at the front. The first argument bounds the number
of lines. -/
def skipLines? : Nat → List Char → Option (List Char)
  | 0, _ => none
  | fuel + 1, cs =>
    match skipComment? (skipSpaces cs) with
    | none => none
    | some ('\n' :: r) => skipLines? fuel r
    | some ('\r' :: '\n' :: r) => skipLines? fuel r
    | some r => some r

/-- What follows the end of a line, after blanks and a comment. -/
def endLine? (cs : List Char) : Option (List Char) :=
  match skipComment? (skipSpaces cs) with
  | some [] => some []
  | some ('\n' :: r) => some r
  | some ('\r' :: '\n' :: r) => some r
  | _ => none

/-! ## Keys -/

/-- A character of a key without quotes. -/
def isBareChar (c : Char) : Bool := c.isAlphanum || c == '_' || c == '-'

/-- One part of a key. -/
def keyPart? (cs : List Char) : Option (String × List Char) :=
  match cs with
  | '"' :: _ => lineString? cs
  | '\'' :: _ => lineString? cs
  | _ =>
    let name := cs.takeWhile isBareChar
    if name = [] then none else some (String.ofList name, cs.dropWhile isBareChar)

/-- The parts of a key, the last one apart, and what follows. The first argument bounds their
number. -/
def key? : Nat → List String → List Char → Option ((List String × String) × List Char)
  | 0, _, _ => none
  | fuel + 1, done, cs =>
    match keyPart? (skipSpaces cs) with
    | none => none
    | some (part, r) =>
      match skipSpaces r with
      | '.' :: r => key? fuel (part :: done) r
      | r => some ((done.reverse, part), r)

/-! ## Values -/

/-- A value without quotes and brackets at the front. A date and a time may stand apart. -/
def bare? (cs : List Char) : Option (Value × List Char) :=
  let run := cs.takeWhile isScalarChar
  let rest := cs.dropWhile isScalarChar
  let joined := match date? run, rest with
    | some [], ' ' :: c :: r =>
      if c.isDigit then
        some (run ++ ' ' :: (c :: r).takeWhile isScalarChar, (c :: r).dropWhile isScalarChar)
      else none
    | _, _ => none
  let (run, rest) := joined.getD (run, rest)
  (scalar? run).map fun v => (v, rest)

/-- A table between braces, out of its keys. -/
def inlineTable (t : Entries) : Value := .table .inline t

mutual

/-- A value at the front. The first argument bounds the number of steps, the second one the nesting
that is left. -/
def value? : Nat → Nat → List Char → Option (Value × List Char)
  | 0, _, _ => none
  | fuel + 1, depth, cs =>
    match cs with
    | '"' :: _ => (string? cs).map fun s => (.string s.1, s.2)
    | '\'' :: _ => (string? cs).map fun s => (.string s.1, s.2)
    | '[' :: r =>
      match depth with
      | 0 => none
      | depth + 1 => items? fuel depth [] r
    | '\x7b' :: r =>
      match depth with
      | 0 => none
      | depth + 1 => members? fuel depth [] r
    | _ => bare? cs

/-- The rest of an array, after the opening bracket or a comma. -/
def items? : Nat → Nat → List Value → List Char → Option (Value × List Char)
  | 0, _, _, _ => none
  | fuel + 1, depth, done, cs =>
    match skipLines? cs.length.succ cs with
    | none => none
    | some (']' :: r) => some (.array done.reverse, r)
    | some r =>
      match value? fuel depth r with
      | none => none
      | some (v, r) =>
        match skipLines? r.length.succ r with
        | some (',' :: r) => items? fuel depth (v :: done) r
        | some (']' :: r) => some (.array (v :: done).reverse, r)
        | _ => none

/-- The rest of an inline table, after the opening brace or a comma. -/
def members? : Nat → Nat → Entries → List Char → Option (Value × List Char)
  | 0, _, _, _ => none
  | fuel + 1, depth, done, cs =>
    match skipLines? cs.length.succ cs with
    | none => none
    | some ('\x7d' :: r) => some (inlineTable done, r)
    | some r =>
      match key? r.length.succ [] r with
      | some ((path, name), '=' :: r) =>
        match value? fuel depth (skipSpaces r) with
        | none => none
        | some (v, r) =>
          match Entries.addKey done path name v with
          | none => none
          | some done =>
            match skipLines? r.length.succ r with
            | some (',' :: r) => members? fuel depth done r
            | some ('\x7d' :: r) => some (inlineTable done, r)
            | _ => none
      | _ => none

end

/-! ## Documents -/

/-- A document that has been read up to some line: its root table, and the way from there to the
table that is open. -/
structure Progress where
  root : Entries
  opened : List String

/-- Adds a key to the open table. -/
def Progress.addKey (p : Progress) (path : List String) (name : String) (v : Value) :
    Option Progress := do
  let root ← p.root.through p.opened fun t => t.addKey path name v
  pure ⟨root, p.opened⟩

/-- A header at the front, after its first bracket. -/
def header? (p : Progress) (cs : List Char) : Option (Progress × List Char) :=
  match cs with
  | '[' :: r =>
    match key? r.length.succ [] r with
    | some ((path, name), ']' :: ']' :: r) => do
      let root ← p.root.openItem path name
      pure (⟨root, path ++ [name]⟩, r)
    | _ => none
  | r =>
    match key? r.length.succ [] r with
    | some ((path, name), ']' :: r) => do
      let root ← p.root.openTable path name
      pure (⟨root, path ++ [name]⟩, r)
    | _ => none

/-- A key with its value at the front. -/
def assignment? (p : Progress) (cs : List Char) : Option (Progress × List Char) :=
  match key? cs.length.succ [] cs with
  | some ((path, name), '=' :: r) =>
    let r := skipSpaces r
    match value? r.length.succ maxDepth r with
    | none => none
    | some (v, r) => (p.addKey path name v).map fun p => (p, r)
  | _ => none

/-- The lines of a document, one after the other. The first argument bounds their number. -/
def lines : Nat → Progress → List Char → Option Entries
  | 0, _, _ => none
  | fuel + 1, p, cs =>
    match skipLines? cs.length.succ cs with
    | none => none
    | some [] => some p.root
    | some ('[' :: r) =>
      match header? p r with
      | none => none
      | some (p, r) => (endLine? r).bind (lines fuel p)
    | some r =>
      match assignment? p r with
      | none => none
      | some (p, r) => (endLine? r).bind (lines fuel p)

/-- The root table of a document. A byte order mark at its beginning counts for nothing. -/
def read? (s : String) : Option Entries :=
  let cs := match s.toList with
    | '\uFEFF' :: r => r
    | r => r
  lines cs.length.succ ⟨[], []⟩ cs

end SnippetRunner.Toml
