import SnippetRunner.Json.Token
import SnippetRunner.Text.Utf16

/-!
# Strings of the drivers

A driver runs inside the interpreter of its language, and its strings are the strings of that
language: code points in Python, UTF-16 units in JavaScript. Both can hold surrogates without a
partner, which no text has. What stands here is how each of them writes a string as JSON, and how it
cuts the output of a request into pieces.
-/

namespace SnippetRunner.Driver

/-- How much of the output goes into one event. -/
def chunk : Nat := 16384

/-- A unit written as `\uXXXX`. -/
def unicodeEscape (u : UInt16) : List Char :=
  let n := u.toNat
  ['\\', 'u', Nat.digitChar (n / 0x1000), Nat.digitChar (n / 0x100 % 0x10),
    Nat.digitChar (n / 0x10 % 0x10), Nat.digitChar (n % 0x10)]

/-- A code point, which may be a surrogate. -/
abbrev CodePoint : Type := Fin 0x110000

/-- The code point of a character. -/
def CodePoint.ofChar (c : Char) : CodePoint :=
  ⟨c.toNat, by
    have valid : c.toNat < 0xD800 ∨ 0xDFFF < c.toNat ∧ c.toNat < 0x110000 := c.valid
    omega⟩

namespace Python

/-- A string. -/
abbrev Str : Type := List CodePoint

/-- The UTF-16 units of a string. -/
def units (s : Str) : List UInt16 := s.flatMap fun c => Text.codeUnits c.val

/-- The string of a text. -/
def ofString (s : String) : Str := s.toList.map CodePoint.ofChar

/-- A code point inside a written string, which is ASCII throughout. -/
def escape (c : CodePoint) : List Char :=
  if c.val < 0x7F then Json.escaped (Char.ofNat c.val)
  else (Text.codeUnits c.val).flatMap unicodeEscape

/-- A written string. -/
def quote (s : Str) : List Char := '"' :: s.flatMap escape ++ ['"']

/-- The code point is a surrogate. -/
def isSurrogate (c : CodePoint) : Bool := 0xD800 ≤ c.val && c.val ≤ 0xDFFF

/-- A string with a question mark for each surrogate. -/
def clean (s : Str) : Str := s.map fun c => if isSurrogate c then 0x3F else c

/-- The pieces of some output: so many code points each, but for the last one. -/
def slices (s : Str) : List Str :=
  if s = [] then [] else s.take chunk :: slices (s.drop chunk)
termination_by s.length
decreasing_by
  have : 0 < s.length := List.length_pos_iff.2 ‹_›
  have : 0 < chunk := by decide
  simp only [List.length_drop]
  omega

/-- The strings of the events for some output. -/
def pieces (s : Str) : List Str := (slices s).map clean

end Python

namespace JavaScript

/-- A string. -/
abbrev Str : Type := List UInt16

/-- The inside of a written string. A pair is written as the character it stands for, and a surrogate
without its partner is escaped. -/
def escape : Str → List Char
  | [] => []
  | [u] => escapeUnit u
  | u :: v :: us =>
    if Text.isHigh u && Text.isLow v then Text.ofPair u v :: escape us
    else escapeUnit u ++ escape (v :: us)
where
  escapeUnit (u : UInt16) : List Char :=
    if Text.isHigh u || Text.isLow u then unicodeEscape u else Json.escaped (Char.ofNat u.toNat)

/-- A written string. -/
def quote (s : Str) : List Char := '"' :: escape s ++ ['"']

/-- Where the first piece of some output ends: a pair is not cut apart. -/
def cut (s : Str) : Nat :=
  let fin := min chunk s.length
  if fin < s.length ∧ 1 < fin ∧ (s[fin - 1]?.any Text.isHigh) then fin - 1 else fin

theorem cut_pos {s : Str} (h : s ≠ []) : 0 < cut s := by
  have : 0 < s.length := List.length_pos_iff.2 h
  have : 0 < chunk := by decide
  unfold cut
  simp only
  split <;> omega

/-- The strings of the events for some output. -/
def pieces (s : Str) : List Str :=
  if s = [] then [] else s.take (cut s) :: pieces (s.drop (cut s))
termination_by s.length
decreasing_by
  have : s ≠ [] := ‹_›
  have : 0 < cut s := cut_pos this
  have : 0 < s.length := List.length_pos_iff.2 ‹_›
  simp only [List.length_drop]
  omega

end JavaScript

end SnippetRunner.Driver
