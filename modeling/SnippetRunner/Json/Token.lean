import SnippetRunner.Json.Value

/-!
# JSON tokens

A JSON text is read as a sequence of tokens first. The scanner takes one character at a time and
keeps what it needs to know in a state, so a text of any length and any nesting is one pass. The
writer lives here too: each token has one written form.

A string that names a surrogate without its partner is a token still, but denotes no text.
-/

namespace SnippetRunner.Json

/-- The smallest meaningful piece of a JSON text. -/
inductive Token where
  | openArray
  | closeArray
  | openObject
  | closeObject
  | colon
  | comma
  | null
  | bool (b : Bool)
  | number (n : Numeral)
  | string (s : Option String)
  deriving DecidableEq, Repr

/-! ## Strings -/

/-- Where the scanner stands inside a string with respect to escapes. -/
inductive Escape where
  /-- Outside any escape. -/
  | plain
  /-- After a backslash. -/
  | backslash
  /-- Inside `\u`, with the hexadecimal digits still missing and the value so far. -/
  | unit (missing : Nat) (code : Nat)
  deriving DecidableEq, Repr

/-- A string of which the closing quote has not come yet. -/
structure Quote where
  /-- The characters so far, the last one first; nothing once they cannot denote a text. -/
  chars : Option (List Char)
  /-- A high surrogate that waits for its partner. -/
  high : Option Nat
  escape : Escape
  deriving DecidableEq, Repr

namespace Quote

/-- A string right after its opening quote. -/
def start : Quote := ⟨some [], none, .plain⟩

/-- A character is added. A high surrogate before it stays without a partner. -/
def add (q : Quote) (c : Char) : Quote :=
  match q.high with
  | none => ⟨q.chars.map (c :: ·), none, .plain⟩
  | some _ => ⟨none, none, .plain⟩

/-- A code unit written as `\uXXXX` is added. -/
def addUnit (q : Quote) (code : Nat) : Quote :=
  match q.high with
  | some h =>
    if 0xDC00 ≤ code ∧ code ≤ 0xDFFF then
      let c := Char.ofNat (0x10000 + (h - 0xD800) * 0x400 + (code - 0xDC00))
      ⟨q.chars.map (c :: ·), none, .plain⟩
    else ⟨none, none, .plain⟩
  | none =>
    if 0xD800 ≤ code ∧ code ≤ 0xDBFF then ⟨q.chars, some code, .plain⟩
    else if 0xDC00 ≤ code ∧ code ≤ 0xDFFF then ⟨none, none, .plain⟩
    else ⟨q.chars.map (Char.ofNat code :: ·), none, .plain⟩

/-- The character that a short escape stands for. -/
def short? (c : Char) : Option Char :=
  match c with
  | '"' => some '"'
  | '\\' => some '\\'
  | '/' => some '/'
  | 'b' => some '\x08'
  | 'f' => some '\x0c'
  | 'n' => some '\n'
  | 'r' => some '\r'
  | 't' => some '\t'
  | _ => none

/-- One character that is not the closing quote. A control character has to be escaped. -/
def push (q : Quote) (c : Char) : Option Quote :=
  match q.escape with
  | .plain =>
    if c = '\\' then some { q with escape := .backslash }
    else if c.toNat < 0x20 then none
    else some (q.add c)
  | .backslash =>
    if c = 'u' then some { q with escape := .unit 4 0 }
    else (short? c).map q.add
  | .unit missing code =>
    match Text.hexDigit? c with
    | none => none
    | some d =>
      let code := code * 16 + d
      if missing ≤ 1 then some (q.addUnit code)
      else some { q with escape := .unit (missing - 1) code }

/-- The string that the characters up to the closing quote denote. -/
def close (q : Quote) : Option String :=
  match q.high with
  | some _ => none
  | none => q.chars.map fun cs => String.ofList cs.reverse

end Quote

/-! ## Numbers -/

/-- Which part of a number the scanner has just read. -/
inductive Part where
  | sign
  | zero
  | whole
  | point
  | fraction
  | mark
  | markSign
  | exponent
  deriving DecidableEq, Repr

/-- A number of which the end has not come yet; its digits stand last one first. -/
structure Digits where
  part : Part
  numeral : Numeral
  deriving DecidableEq, Repr

namespace Digits

/-- The number that begins with this character. -/
def start? (c : Char) : Option Digits :=
  if c = '-' then some ⟨.sign, ⟨true, [], none, none⟩⟩
  else if c = '0' then some ⟨.zero, ⟨false, [0], none, none⟩⟩
  else (Text.digit? c).map fun d => ⟨.whole, ⟨false, [d], none, none⟩⟩

/-- What a character after the beginning of a number does to it. -/
inductive Next where
  /-- It belongs to the number. -/
  | more (d : Digits)
  /-- The number ended before it. -/
  | ended
  /-- No number goes on like this. -/
  | refused
  deriving DecidableEq, Repr

/-- A digit after the point. -/
def Numeral.addFraction (n : Numeral) (d : Nat) : Numeral :=
  { n with fraction := some (d :: n.fraction.getD []) }

/-- A digit of the exponent. -/
def Numeral.addExponent (n : Numeral) (d : Nat) : Numeral :=
  let e := n.exponent.getD (false, [])
  { n with exponent := some (e.1, d :: e.2) }

/-- One character more. -/
def push (s : Digits) (c : Char) : Next :=
  let n := s.numeral
  match s.part, Text.digit? c with
  | .sign, some d =>
    .more ⟨if d = 0 then .zero else .whole, { n with whole := [d] }⟩
  | .zero, some _ => .refused
  | .whole, some d => .more ⟨.whole, { n with whole := d :: n.whole }⟩
  | .point, some d => .more ⟨.fraction, Numeral.addFraction n d⟩
  | .fraction, some d => .more ⟨.fraction, Numeral.addFraction n d⟩
  | .mark, some d => .more ⟨.exponent, Numeral.addExponent n d⟩
  | .markSign, some d => .more ⟨.exponent, Numeral.addExponent n d⟩
  | .exponent, some d => .more ⟨.exponent, Numeral.addExponent n d⟩
  | .sign, none => .refused
  | .point, none => .refused
  | .markSign, none => .refused
  | .mark, none =>
    if c = '+' then .more ⟨.markSign, { n with exponent := some (false, []) }⟩
    else if c = '-' then .more ⟨.markSign, { n with exponent := some (true, []) }⟩
    else .refused
  | .fraction, none => if c = 'e' ∨ c = 'E' then .more ⟨.mark, n⟩ else .ended
  | .exponent, none => .ended
  | .zero, none =>
    if c = '.' then .more ⟨.point, n⟩
    else if c = 'e' ∨ c = 'E' then .more ⟨.mark, n⟩
    else .ended
  | .whole, none =>
    if c = '.' then .more ⟨.point, n⟩
    else if c = 'e' ∨ c = 'E' then .more ⟨.mark, n⟩
    else .ended

/-- The number, if it may end here. -/
def close? (s : Digits) : Option Numeral :=
  match s.part with
  | .zero | .whole | .fraction | .exponent =>
    let n := s.numeral
    some ⟨n.negative, n.whole.reverse, n.fraction.map List.reverse,
      n.exponent.map fun e => (e.1, e.2.reverse)⟩
  | _ => none

end Digits

/-! ## The scanner -/

/-- Where the scanner stands. -/
inductive Mode where
  | between
  /-- Inside `null`, `true` or `false`, with the letters still missing. -/
  | word (missing : List Char) (token : Token)
  | number (s : Digits)
  | string (q : Quote)
  deriving DecidableEq, Repr

/-- A text that has been read up to some character: its tokens, the last one first, and the piece
that is not complete. -/
structure Scan where
  tokens : List Token
  mode : Mode
  deriving DecidableEq, Repr

namespace Scan

/-- Nothing has been read. -/
def start : Scan := ⟨[], .between⟩

/-- A character that may stand between tokens. -/
def isSpace (c : Char) : Bool :=
  c == ' ' || c == '\t' || c == '\n' || c == '\r'

/-- A character after a complete token. -/
def fresh (ts : List Token) (c : Char) : Option Scan :=
  if isSpace c then some ⟨ts, .between⟩
  else match c with
    | '[' => some ⟨.openArray :: ts, .between⟩
    | ']' => some ⟨.closeArray :: ts, .between⟩
    | '\x7b' => some ⟨.openObject :: ts, .between⟩
    | '\x7d' => some ⟨.closeObject :: ts, .between⟩
    | ':' => some ⟨.colon :: ts, .between⟩
    | ',' => some ⟨.comma :: ts, .between⟩
    | '"' => some ⟨ts, .string .start⟩
    | 'n' => some ⟨ts, .word ['u', 'l', 'l'] .null⟩
    | 't' => some ⟨ts, .word ['r', 'u', 'e'] (.bool true)⟩
    | 'f' => some ⟨ts, .word ['a', 'l', 's', 'e'] (.bool false)⟩
    | _ => (Digits.start? c).map fun s => ⟨ts, .number s⟩

/-- One character more, or a refusal where no JSON text goes on like this. -/
def push (s : Scan) (c : Char) : Option Scan :=
  match s.mode with
  | .between => fresh s.tokens c
  | .word [] t => fresh (t :: s.tokens) c
  | .word [x] t => if c = x then some ⟨t :: s.tokens, .between⟩ else none
  | .word (x :: xs) t => if c = x then some ⟨s.tokens, .word xs t⟩ else none
  | .number d =>
    match d.push c with
    | .more d' => some ⟨s.tokens, .number d'⟩
    | .refused => none
    | .ended => d.close?.bind fun n => fresh (.number n :: s.tokens) c
  | .string q =>
    if c = '"' ∧ q.escape = .plain then some ⟨.string q.close :: s.tokens, .between⟩
    else (q.push c).map fun q' => ⟨s.tokens, .string q'⟩

/-- The tokens, if the text may end here. -/
def close? (s : Scan) : Option (List Token) :=
  match s.mode with
  | .between => some s.tokens.reverse
  | .number d => d.close?.map fun n => (Token.number n :: s.tokens).reverse
  | _ => none

end Scan

/-- The tokens of a text. -/
def tokens? (s : String) : Option (List Token) :=
  (s.toList.foldlM Scan.push Scan.start).bind Scan.close?

/-! ## How deep, and how exact -/

/-- How many arrays and objects are open at once, at most: the number open now and the greatest so
far. -/
def nestingFrom : Nat × Nat → List Token → Nat × Nat :=
  List.foldl fun s t =>
    match t with
    | .openArray | .openObject => (s.1 + 1, max s.2 (s.1 + 1))
    | .closeArray | .closeObject => (s.1 - 1, s.2)
    | _ => s

/-- The greatest number of arrays and objects that are open at once. -/
def nesting (ts : List Token) : Nat := (nestingFrom (0, 0) ts).2

/-- A token whose value can be kept: a string that denotes a text, a number in the range of a
double, or a token without a value of its own. -/
def Token.kept : Token → Bool
  | .string s => s.isSome
  | .number n => n.inRange
  | _ => true

/-! ## Written forms -/

/-- A character inside a written string. Only the quote, the backslash and the control characters
below the space are escaped. -/
def escaped (c : Char) : List Char :=
  match c with
  | '"' => ['\\', '"']
  | '\\' => ['\\', '\\']
  | '\x08' => ['\\', 'b']
  | '\x0c' => ['\\', 'f']
  | '\n' => ['\\', 'n']
  | '\r' => ['\\', 'r']
  | '\t' => ['\\', 't']
  | _ =>
    if c.toNat < 0x20 then
      ['\\', 'u', '0', '0', Nat.digitChar (c.toNat / 16), Nat.digitChar (c.toNat % 16)]
    else [c]

/-- The digits of a numeral, as characters. -/
def digitChars (ds : List Nat) : List Char := ds.map Nat.digitChar

/-- A number with its sign, fraction and exponent. -/
def Numeral.chars (n : Numeral) : List Char :=
  (if n.negative then ['-'] else []) ++ digitChars n.whole ++
    (match n.fraction with
      | none => []
      | some ds => '.' :: digitChars ds) ++
    (match n.exponent with
      | none => []
      | some (negative, ds) => 'e' :: (if negative then ['-'] else []) ++ digitChars ds)

/-- The written form of a token. -/
def Token.chars : Token → List Char
  | .openArray => ['[']
  | .closeArray => [']']
  | .openObject => ['\x7b']
  | .closeObject => ['\x7d']
  | .colon => [':']
  | .comma => [',']
  | .null => ['n', 'u', 'l', 'l']
  | .bool true => ['t', 'r', 'u', 'e']
  | .bool false => ['f', 'a', 'l', 's', 'e']
  | .number n => n.chars
  | .string s => '"' :: (s.getD "").toList.flatMap escaped ++ ['"']

/-- The written form of a token sequence, without any space. -/
def writeTokens (ts : List Token) : String :=
  String.ofList (ts.flatMap Token.chars)

end SnippetRunner.Json
