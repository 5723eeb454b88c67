import SnippetRunner.Text.Decimal

/-!
# Strings of TOML

The four kinds of strings: with escapes or literal, on one line or on several. Each reader starts
after the opening quotes and gives the characters and what follows the closing quotes.
-/

namespace SnippetRunner.Toml

/-- A character that a string or comment may hold as it is, line ends apart. -/
def isPlain (c : Char) : Bool := c == '\t' || (0x20 ≤ c.toNat && c.toNat != 0x7F)

/-- The character of a code point that is one. -/
def ofCode? (n : Nat) : Option Char :=
  if n < 0xD800 ∨ (0xDFFF < n ∧ n < 0x110000) then some (Char.ofNat n) else none

/-- A character by its number in so many hexadecimal digits. -/
def coded? (n : Nat) (cs : List Char) : Option (Char × List Char) :=
  let front := cs.take n
  if front.length = n then do
    let ds ← front.mapM Text.hexDigit?
    let c ← ofCode? (Text.ofDigits 16 ds)
    pure (c, cs.drop n)
  else none

/-- The character of an escape, after its backslash. -/
def escape? (cs : List Char) : Option (Char × List Char) :=
  match cs with
  | 'b' :: r => some ('\x08', r)
  | 't' :: r => some ('\t', r)
  | 'n' :: r => some ('\n', r)
  | 'f' :: r => some ('\x0c', r)
  | 'r' :: r => some ('\r', r)
  | 'e' :: r => some ('\x1b', r)
  | '"' :: r => some ('"', r)
  | '\\' :: r => some ('\\', r)
  | 'x' :: r => coded? 2 r
  | 'u' :: r => coded? 4 r
  | 'U' :: r => coded? 8 r
  | _ => none

/-- The rest of a string on one line, up to the quote; a string in double quotes has escapes. The
first argument bounds the number of characters. -/
def line? (quote : Char) : Nat → List Char → List Char → Option (List Char × List Char)
  | 0, _, _ => none
  | fuel + 1, done, cs =>
    match cs with
    | [] => none
    | c :: r =>
      if c = quote then some (done.reverse, r)
      else if c = '\\' ∧ quote = '"' then
        match escape? r with
        | none => none
        | some (e, r) => line? quote fuel (e :: done) r
      else if isPlain c then line? quote fuel (c :: done) r
      else none

/-- What follows the blanks and line ends at the front. -/
def skipBlanks (cs : List Char) : List Char :=
  cs.dropWhile fun c => c == ' ' || c == '\t' || c == '\n' || c == '\r'

/-- The rest of a string on several lines, up to three quotes. As many as two quotes may stand
before those. A backslash at the end of a line swallows the white space after it. -/
def lines? (quote : Char) : Nat → List Char → List Char → Option (List Char × List Char)
  | 0, _, _ => none
  | fuel + 1, done, cs =>
    match cs with
    | [] => none
    | '\n' :: r => lines? quote fuel ('\n' :: done) r
    | '\r' :: '\n' :: r => lines? quote fuel ('\n' :: done) r
    | c :: r =>
      if c = quote then
        let run := 1 + (r.takeWhile fun c => c == quote).length
        let rest := r.dropWhile fun c => c == quote
        if run < 3 then lines? quote fuel (List.replicate run quote ++ done) rest
        else if run ≤ 5 then some ((List.replicate (run - 3) quote ++ done).reverse, rest)
        else none
      else if c = '\\' ∧ quote = '"' then
        match (r.dropWhile fun c => c == ' ' || c == '\t') with
        | '\n' :: rest => lines? quote fuel done (skipBlanks rest)
        | '\r' :: '\n' :: rest => lines? quote fuel done (skipBlanks rest)
        | _ =>
          match escape? r with
          | none => none
          | some (e, r) => lines? quote fuel (e :: done) r
      else if isPlain c then lines? quote fuel (c :: done) r
      else none

/-- A string on one line at the front. -/
def lineString? (cs : List Char) : Option (String × List Char) :=
  match cs with
  | c :: r =>
    if c = '"' ∨ c = '\'' then (line? c cs.length [] r).map fun s => (String.ofList s.1, s.2)
    else none
  | [] => none

/-- The text after a line end that directly follows the opening quotes. -/
def afterFirstBreak (cs : List Char) : List Char :=
  match cs with
  | '\n' :: r => r
  | '\r' :: '\n' :: r => r
  | r => r

/-- A string of any kind at the front. -/
def string? (cs : List Char) : Option (String × List Char) :=
  match cs with
  | '"' :: '"' :: '"' :: r =>
    (lines? '"' cs.length [] (afterFirstBreak r)).map fun s => (String.ofList s.1, s.2)
  | '\'' :: '\'' :: '\'' :: r =>
    (lines? '\'' cs.length [] (afterFirstBreak r)).map fun s => (String.ofList s.1, s.2)
  | _ => lineString? cs

end SnippetRunner.Toml
