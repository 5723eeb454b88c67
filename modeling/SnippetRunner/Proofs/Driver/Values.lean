import SnippetRunner.Driver.Event
import SnippetRunner.Proofs.Json.Document
import SnippetRunner.Proofs.Json.Numbers
import SnippetRunner.Proofs.Json.Strings

/-!
# What the drivers write

Both drivers write JSON in their own way, and both ways are read alike: a written string denotes the
text that its UTF-16 units encode, or none, and a written value is the JSON value with these strings
in it.
-/

namespace SnippetRunner.Driver

open SnippetRunner.Json (Quote Token Stops)
open SnippetRunner.Json.Scan (Spells SpellsBefore spells_braces)
open SnippetRunner.Text (codeUnits decodeUtf16? utf16 isHigh isLow)

/-! ## Strings -/

/-- A unit by its number is the unit. -/
theorem leads_unicodeEscape {q : Quote} (plain : q.escape = .plain) (u : UInt16) :
    q.Leads (unicodeEscape u) (q.addUnit u.toNat) :=
  Quote.leads_unit plain u.toNat_lt

theorem leads_unicodeEscapes {q : Quote} (plain : q.escape = .plain) (us : List UInt16) :
    q.Leads (us.flatMap unicodeEscape) (q.addAll us) := by
  have all := Quote.leads_flatMap (f := unicodeEscape) (g := fun u => [u])
    (fun u q plain => leads_unicodeEscape plain u) plain us
  rwa [List.flatMap_singleton'] at all

/-- A code point in ASCII or by the numbers of its units is its units. -/
theorem Python.leads_escape {q : Quote} (plain : q.escape = .plain) (c : CodePoint) :
    q.Leads (escape c) (q.addAll (codeUnits c.val)) := by
  unfold escape
  by_cases ascii : c.val < 0x7F
  · have valid : c.val.isValidChar := .inl (by omega)
    rw [if_pos ascii]
    have added := Quote.leads_escaped plain (Char.ofNat c.val)
    rwa [Quote.add_eq_addAll, Text.toNat_ofNat_of_valid valid] at added
  · rw [if_neg ascii]
    exact leads_unicodeEscapes plain (codeUnits c.val)

theorem Python.spells_quote (s : Str) : Spells (quote s) [.string (decodeUtf16? (units s))] := by
  have inside : Quote.start.Leads (s.flatMap escape) (Quote.start.addAll (units s)) :=
    Quote.leads_flatMap (fun c q plain => leads_escape plain c) rfl s
  rw [← Quote.close_addAll_start]
  exact Json.Scan.spells_string inside (Quote.escape_addAll rfl _)

/-- A unit by itself. -/
theorem JavaScript.leads_escapeUnit {q : Quote} (plain : q.escape = .plain) (u : UInt16) :
    q.Leads (escape.escapeUnit u) (q.addAll [u]) := by
  unfold escape.escapeUnit
  split
  · exact leads_unicodeEscape plain u
  next h =>
    have single : (isHigh u || isLow u) = false := by simpa using h
    have added := Quote.leads_escaped plain (Char.ofNat u.toNat)
    rwa [Quote.add_eq_addAll, Text.codeUnits_of_plain single] at added

theorem JavaScript.leads_escape {q : Quote} (plain : q.escape = .plain) (s : Str) :
    q.Leads (escape s) (q.addAll s) := by
  induction s using escape.induct generalizing q with
  | case1 => exact .refl q
  | case2 u => exact leads_escapeUnit plain u
  | case3 u v us pair ih =>
    obtain ⟨high, low⟩ : isHigh u = true ∧ isLow v = true := by simpa using pair
    have written : escape (u :: v :: us) = [Text.ofPair u v] ++ escape us := by
      rw [escape, if_pos pair]
      rfl
    have first : q.Leads [Text.ofPair u v] (q.addAll [u, v]) := by
      have large := Text.le_toNat_ofPair high low
      rw [← Text.codeUnits_ofPair high low, ← Quote.add_eq_addAll]
      apply Quote.leads_raw plain _ _ (by omega)
      · intro is
        rw [is] at large
        exact absurd large (by decide)
      · intro is
        rw [is] at large
        exact absurd large (by decide)
    rw [written]
    exact first.trans (ih (Quote.escape_addAll plain [u, v]))
  | case4 u v us single ih =>
    rw [escape, if_neg single]
    exact (leads_escapeUnit plain u).trans (ih (Quote.escape_addAll plain [u]))

theorem JavaScript.spells_quote (s : Str) : Spells (quote s) [.string (decodeUtf16? s)] := by
  have inside : Quote.start.Leads (escape s) (Quote.start.addAll s) := leads_escape rfl s
  rw [← Quote.close_addAll_start]
  exact Json.Scan.spells_string inside (Quote.escape_addAll rfl _)

namespace Dialect

variable {d : Dialect}

/-- The text that a string denotes, if it denotes one. -/
def text? (d : Dialect) (s : d.Str) : Option String := decodeUtf16? (d.units s)

/-- A written string is read as the text that it denotes. -/
theorem spells_quote (d : Dialect) (s : d.Str) : Spells (d.quote s) [.string (d.text? s)] := by
  cases d with
  | python => exact Python.spells_quote s
  | javaScript => exact JavaScript.spells_quote s

/-- The string of a text has the units of the text. -/
theorem units_ofString (d : Dialect) (s : String) : d.units (d.ofString s) = utf16 s := by
  cases d with
  | python =>
    show (s.toList.map CodePoint.ofChar).flatMap _ = s.toList.flatMap _
    rw [List.flatMap_map]
    rfl
  | javaScript => rfl

/-- The string of a text denotes the text. -/
theorem text?_ofString (d : Dialect) (s : String) : d.text? (d.ofString s) = some s :=
  Text.decodeUtf16?_eq_some_iff.2 (units_ofString d s)

theorem spells_key (d : Dialect) (k : String) :
    Spells (d.quote (d.ofString k) ++ ':' :: d.gap) [.string (some k), .colon] := by
  have key := spells_quote d (d.ofString k)
  have colon : Spells (':' :: d.gap) [.colon] := by
    cases d <;> exact fun _ => rfl
  rw [text?_ofString] at key
  exact key.append colon

theorem spells_comma (d : Dialect) : Spells (',' :: d.gap) [.comma] := by
  cases d <;> exact fun _ => rfl

end Dialect

/-! ## Values -/

namespace Datum

variable {d : Dialect}

mutual

/-- The JSON value that is written. -/
def value : Datum d.Str → Json.Value
  | .null => .null
  | .number i => .int i
  | .string s => .string (d.text? s)
  | .object ms => .object (memberValues ms)

/-- The members that are written. -/
def memberValues : List (String × Datum d.Str) → List (Option String × Json.Value)
  | [] => []
  | (k, v) :: ms => (some k, v.value) :: memberValues ms

end

mutual

/-- A written value is read as the tokens of its value. -/
theorem spellsBefore_chars : ∀ v : Datum d.Str, SpellsBefore v.chars v.value.tokens
  | .null => by
    unfold chars value
    have word : Spells Token.null.chars [.null] := fun _ => rfl
    exact word.before
  | .number i => by
    unfold chars value
    exact Json.Scan.spellsBefore_int i
  | .string s => by
    unfold chars value
    exact (Dialect.spells_quote d s).before
  | .object ms => by
    unfold chars value
    exact (spells_braces (spellsBefore_memberChars ms)).before

/-- Written members are read as their tokens. -/
theorem spellsBefore_memberChars : ∀ ms : List (String × Datum d.Str),
    SpellsBefore (memberChars ms) (Json.memberTokens (memberValues ms))
  | [] => by
    unfold memberChars memberValues
    exact Spells.nil.before
  | [(k, v)] => by
    unfold memberChars memberValues memberValues
    exact (Dialect.spells_key d k).appendBefore (spellsBefore_chars v)
  | (k, v) :: (l, w) :: ms => by
    have first := (Dialect.spells_key d k).appendBefore (spellsBefore_chars v)
    have all := (first.append (by decide) (Dialect.spells_comma d)).appendBefore
      (spellsBefore_memberChars ((l, w) :: ms))
    unfold memberChars
    show SpellsBefore _ (.string (some k) :: .colon :: v.value.tokens ++
      .comma :: Json.memberTokens (memberValues ((l, w) :: ms)))
    simpa only [List.append_assoc, List.cons_append, List.nil_append] using all

end

/-- The line of an object is read as its tokens. -/
theorem tokens?_line (ms : List (String × Datum d.Str)) :
    Json.tokens? (d.line (.object ms)) = some (value (.object ms)).tokens := by
  have written : Spells (chars (.object ms)) (value (.object ms)).tokens := by
    unfold chars value
    exact spells_braces (spellsBefore_memberChars ms)
  exact Json.Scan.tokens?_of_spells written

end Datum

end SnippetRunner.Driver
