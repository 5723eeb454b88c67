import Mathlib.Data.List.Chain
import SnippetRunner.Proofs.Json.Document
import SnippetRunner.Proofs.Json.Numbers
import SnippetRunner.Proofs.Json.Strings

/-!
# All spellings of a value

A value has many texts: white space may stand between any two tokens, and a character of a string may
be written as itself, with a short escape or by the numbers of its UTF-16 units. All of them are read
as the value. An integer is spelled in one way only; numbers that are no integers have no spelling
here.

The proof goes through the text token by token. A number ends only where the next character says so,
so what matters is that no number stands next to another one.
-/

namespace SnippetRunner.Json

open Scan (Spells SpellsBefore)

/-! ## Spellings -/

/-- The character is the hexadecimal digit of the number, in lower or upper case. -/
def IsHexDigit (c : Char) (n : Nat) : Prop :=
  "0123456789abcdef".toList[n]? = some c ∨ "0123456789ABCDEF".toList[n]? = some c

instance (c : Char) (n : Nat) : Decidable (IsHexDigit c n) := inferInstanceAs (Decidable (_ ∨ _))

/-- A unit by its number. -/
inductive SpellsUnit (u : UInt16) : List Char → Prop where
  | intro {c₁ c₂ c₃ c₄ : Char} (first : IsHexDigit c₁ (u.toNat / 0x1000))
    (second : IsHexDigit c₂ (u.toNat / 0x100 % 0x10)) (third : IsHexDigit c₃ (u.toNat / 0x10 % 0x10))
    (last : IsHexDigit c₄ (u.toNat % 0x10)) : SpellsUnit u ['\\', 'u', c₁, c₂, c₃, c₄]

/-- The letters of the short escapes and what they stand for. -/
def shortEscapes : List (Char × Char) :=
  [('"', '"'), ('\\', '\\'), ('/', '/'), ('b', '\x08'), ('f', '\x0c'), ('n', '\n'), ('r', '\r'),
    ('t', '\t')]

/-- A character inside a string. -/
inductive SpellsChar (c : Char) : List Char → Prop where
  | raw (quote : c ≠ '"') (backslash : c ≠ '\\') (visible : 0x20 ≤ c.toNat) : SpellsChar c [c]
  | short {letter : Char} (listed : (letter, c) ∈ shortEscapes) : SpellsChar c ['\\', letter]
  | units {pieces : List (List Char)}
    (each : List.Forall₂ SpellsUnit (Text.codeUnits c.toNat) pieces) : SpellsChar c pieces.flatten

/-- A token. -/
inductive SpellsToken : Token → List Char → Prop where
  | openArray : SpellsToken .openArray ['[']
  | closeArray : SpellsToken .closeArray [']']
  | openObject : SpellsToken .openObject ['\x7b']
  | closeObject : SpellsToken .closeObject ['\x7d']
  | colon : SpellsToken .colon [':']
  | comma : SpellsToken .comma [',']
  | null : SpellsToken .null ['n', 'u', 'l', 'l']
  | truth : SpellsToken (.bool true) ['t', 'r', 'u', 'e']
  | falsity : SpellsToken (.bool false) ['f', 'a', 'l', 's', 'e']
  | integer (negative : Bool) (n : Nat) :
    SpellsToken (.number ⟨negative, digits n, none, none⟩)
      ((if negative then ['-'] else []) ++ digitChars (digits n))
  | string {s : String} {pieces : List (List Char)}
    (each : List.Forall₂ SpellsChar s.toList pieces) :
    SpellsToken (.string (some s)) ('"' :: pieces.flatten ++ ['"'])

/-- White space. -/
def IsWhite (cs : List Char) : Prop := ∀ c ∈ cs, c ∈ [' ', '\t', '\n', '\r']

/-- Tokens in their order, with white space before, between and after them. -/
inductive SpellsAll : List Token → List Char → Prop where
  | nil {white : List Char} (is : IsWhite white) : SpellsAll [] white
  | cons {white cs rest : List Char} {t : Token} {ts : List Token} (is : IsWhite white)
    (token : SpellsToken t cs) (more : SpellsAll ts rest) : SpellsAll (t :: ts) (white ++ cs ++ rest)

/-- The text is a spelling of the value. -/
def Value.SpelledBy (v : Value) (text : String) : Prop := SpellsAll v.tokens text.toList

/-! ## Strings -/

theorem hexDigit?_of_isHexDigit {c : Char} {n : Nat} (h : IsHexDigit c n) :
    Text.hexDigit? c = some n := by
  have small : n < 16 := by
    rcases h with h | h <;> exact (List.getElem?_eq_some_iff.1 h).1
  interval_cases n <;> rcases h with h | h <;> rw [← Option.some.inj h] <;> decide

theorem short?_of_listed {letter c : Char} (listed : (letter, c) ∈ shortEscapes) :
    letter ≠ 'u' ∧ Quote.short? letter = some c := by
  revert listed
  unfold shortEscapes
  simp only [List.mem_cons, Prod.mk.injEq, List.not_mem_nil, or_false]
  rintro (⟨rfl, rfl⟩ | ⟨rfl, rfl⟩ | ⟨rfl, rfl⟩ | ⟨rfl, rfl⟩ | ⟨rfl, rfl⟩ | ⟨rfl, rfl⟩ | ⟨rfl, rfl⟩ |
    ⟨rfl, rfl⟩) <;> exact ⟨by decide, rfl⟩

namespace Quote

variable {q : Quote} {c : Char} {u : UInt16} {cs : List Char} {pieces : List (List Char)}

theorem leads_of_spellsUnit (plain : q.escape = .plain) (h : SpellsUnit u cs) :
    q.Leads cs (q.addUnit u.toNat) := by
  obtain ⟨first, second, third, last⟩ := h
  exact leads_hexUnit plain (hexDigit?_of_isHexDigit first) (hexDigit?_of_isHexDigit second)
    (hexDigit?_of_isHexDigit third) (hexDigit?_of_isHexDigit last)

theorem leads_of_spellsUnits {us : List UInt16} (plain : q.escape = .plain)
    (each : List.Forall₂ SpellsUnit us pieces) : q.Leads pieces.flatten (q.addAll us) := by
  induction each generalizing q with
  | nil => exact .refl q
  | cons unit _ ih => exact (leads_of_spellsUnit plain unit).trans (ih (escape_addUnit q _))

theorem leads_of_spellsChar (plain : q.escape = .plain) (h : SpellsChar c cs) :
    q.Leads cs (q.add c) := by
  cases h with
  | raw quote backslash visible => exact leads_raw plain quote backslash visible
  | short listed =>
    obtain ⟨other, stands⟩ := short?_of_listed listed
    exact leads_short plain other stands
  | units each =>
    rw [add_eq_addAll]
    exact leads_of_spellsUnits plain each

theorem leads_of_spellsChars {chars : List Char} (plain : q.escape = .plain)
    (each : List.Forall₂ SpellsChar chars pieces) :
    q.Leads pieces.flatten (q.addAll (chars.flatMap fun c => Text.codeUnits c.toNat)) := by
  induction each generalizing q with
  | nil => exact .refl q
  | cons char _ ih =>
    rw [List.flatMap_cons, addAll_append]
    have first := leads_of_spellsChar plain char
    rw [add_eq_addAll] at first
    exact first.trans (ih (escape_addAll plain _))

end Quote

/-! ## Tokens -/

/-- The token is a number. -/
def Token.isNumber : Token → Bool
  | .number _ => true
  | _ => false

namespace SpellsToken

variable {t : Token} {cs : List Char}

/-- A token that is no number is complete by itself. -/
theorem spells (h : SpellsToken t cs) (other : t.isNumber = false) : Spells cs [t] := by
  cases h with
  | integer => cases other
  | @string s pieces each =>
    have inside := Quote.leads_of_spellsChars (q := .start) rfl each
    have text : (Quote.start.addAll (Text.utf16 s)).close = some s := by
      rw [Quote.close_addAll_start]
      exact Text.decodeUtf16?_eq_some_iff.2 rfl
    have spelled := Scan.spells_string inside (Quote.escape_addAll rfl _)
    rwa [← Text.utf16, text] at spelled
  | _ => exact fun _ => rfl

/-- A token that is no number begins with a character that ends one. -/
theorem begins (h : SpellsToken t cs) (other : t.isNumber = false) :
    ∃ c ds, cs = c :: ds ∧ Stops c := by
  cases h with
  | integer => cases other
  | string => exact ⟨'"', _, rfl, by decide⟩
  | _ => exact ⟨_, _, rfl, by decide⟩

/-- A number is complete where the next character ends it. -/
theorem spellsBefore (h : SpellsToken t cs) (number : t.isNumber = true) : SpellsBefore cs [t] := by
  cases h with
  | integer negative n =>
    intro before c stops
    rw [Scan.run_append, Scan.run_signed, Option.bind_some, Scan.run_cons, Scan.push_of_stops stops]
    rfl
  | _ => cases number

/-- A number is complete where the text ends. -/
theorem ends (h : SpellsToken t cs) (number : t.isNumber = true) (before : List Token) :
    (Scan.run ⟨before, .between⟩ cs).bind Scan.close? = some (before.reverse ++ [t]) := by
  cases h with
  | integer negative n =>
    rw [Scan.run_signed, Option.bind_some]
    unfold Scan.close?
    simp [Digits.close?_reading]
  | _ => cases number

end SpellsToken

/-! ## Texts -/

/-- No number stands next to another one. -/
def Apart (ts : List Token) : Prop :=
  ts.IsChain fun t u => ¬(t.isNumber = true ∧ u.isNumber = true)

/-- What stands between two parts keeps their numbers apart. -/
theorem apart_append_cons {ts us : List Token} {t : Token} (other : t.isNumber = false)
    (first : Apart ts) (second : Apart us) : Apart (ts ++ t :: us) := by
  refine List.isChain_append.2 ⟨first, List.isChain_cons.2 ⟨?_, second⟩, ?_⟩ <;> simp [other]

theorem apart_name (k : Option String) {ts : List Token} (value : Apart ts) :
    Apart (.string k :: .colon :: ts) := by
  show Apart ([.string k] ++ .colon :: ts)
  exact apart_append_cons rfl (.singleton _) value

mutual

/-- Numbers are kept apart in every value. -/
theorem apart_tokens : ∀ v : Value, Apart v.tokens
  | .null => .singleton _
  | .bool _ => .singleton _
  | .number _ => .singleton _
  | .string _ => .singleton _
  | .array items =>
    have inside := apart_append_cons (t := .closeArray) rfl (apart_itemTokens items) .nil
    apart_append_cons (t := .openArray) rfl .nil inside
  | .object members =>
    have inside := apart_append_cons (t := .closeObject) rfl (apart_memberTokens members) .nil
    apart_append_cons (t := .openObject) rfl .nil inside

/-- By commas between items. -/
theorem apart_itemTokens : ∀ items : List Value, Apart (itemTokens items)
  | [] => .nil
  | [v] => apart_tokens v
  | v :: w :: vs => apart_append_cons rfl (apart_tokens v) (apart_itemTokens (w :: vs))

/-- By names, colons and commas between members. -/
theorem apart_memberTokens : ∀ members : List (Option String × Value), Apart (memberTokens members)
  | [] => .nil
  | [(k, v)] => apart_name k (apart_tokens v)
  | (k, v) :: m :: ms =>
    apart_append_cons rfl (apart_name k (apart_tokens v)) (apart_memberTokens (m :: ms))

end

namespace SpellsAll

variable {ts : List Token} {t : Token} {cs : List Char} {c : Char}

theorem spells_white {white : List Char} (is : IsWhite white) : Spells white [] := by
  induction white with
  | nil => exact .nil
  | cons c cs ih =>
    have space : Spells [c] [] := by
      have listed := is c (List.mem_cons_self ..)
      simp only [List.mem_cons, List.not_mem_nil, or_false] at listed
      rcases listed with rfl | rfl | rfl | rfl <;> exact fun _ => rfl
    exact space.append (ih fun d inside => is d (List.mem_cons_of_mem _ inside))

/-- The first character of a text before which a number stands ends it. -/
theorem stops_head (h : SpellsAll ts (c :: cs)) (other : ∀ t ∈ ts.head?, t.isNumber = false) :
    Stops c := by
  have stops_white {white : List Char} (is : IsWhite white) (inside : c ∈ white) : Stops c := by
    have listed := is c inside
    simp only [List.mem_cons, List.not_mem_nil, or_false] at listed
    rcases listed with rfl | rfl | rfl | rfl <;> decide
  generalize text : c :: cs = all at h
  cases h with
  | nil is => exact stops_white is (text ▸ List.mem_cons_self ..)
  | @cons white ds rest t ts is token more =>
    cases white with
    | cons d white =>
      obtain ⟨rfl, -⟩ := List.cons.inj text
      exact stops_white is (List.mem_cons_self ..)
    | nil =>
      obtain ⟨d, ds, rfl, stops⟩ := token.begins (other t rfl)
      obtain ⟨rfl, -⟩ := List.cons.inj text
      exact stops

/-- To the end of the text, these characters are these tokens. -/
theorem reads (h : SpellsAll ts cs) (apart : Apart ts) (before : List Token) :
    (Scan.run ⟨before, .between⟩ cs).bind Scan.close? = some (before.reverse ++ ts) := by
  induction h generalizing before with
  | nil is =>
    rw [spells_white is before, List.append_nil]
    rfl
  | @cons white cs rest t ts is token more ih =>
    have later := ih (List.isChain_cons.1 apart).2 (t :: before)
    rw [List.reverse_cons, List.append_assoc] at later
    rw [List.append_assoc, Scan.run_append, spells_white is before, Option.bind_some]
    cases number : t.isNumber with
    | false =>
      have first := token.spells number before
      show (Scan.run ⟨before, .between⟩ (cs ++ rest)).bind _ = _
      rw [Scan.run_append, first, Option.bind_some]
      exact later
    | true =>
      show (Scan.run ⟨before, .between⟩ (cs ++ rest)).bind _ = _
      cases rest with
      | nil =>
        -- nothing is left, and nothing is no token: the number is the last one
        rw [List.append_nil, token.ends number before]
        exact (congrArg some List.reverse_cons).symm.trans later
      | cons c rest =>
        have stops : Stops c := more.stops_head fun u next => by
          have := (List.isChain_cons.1 apart).1 u next
          simpa [number] using this
        have first := token.spellsBefore number before c stops
        rw [List.append_cons, Scan.run_append, first, ← Scan.run_append]
        exact later

end SpellsAll

/-- A spelling of a value has its tokens. -/
theorem tokens?_of_spelledBy {v : Value} {text : String} (h : v.SpelledBy text) :
    tokens? text = some v.tokens :=
  h.reads (apart_tokens v) []

end SnippetRunner.Json
