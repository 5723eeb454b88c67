import SnippetRunner.Proofs.Json.Spelling

/-!
# Written values read back

A written value is read as itself wherever its strings are texts and its numbers integers, since what
the writer writes is one of the spellings. The exceptions cannot be avoided: a string that denotes no
text is written as the empty one, and a number with a sign or an exponent of its own has spellings that
no writer uses.
-/

namespace SnippetRunner.Json

/-! ## Values that the writer keeps -/

mutual

/-- Every string in the value, names of members included, is a text, and every number an integer in
its plain form. -/
def Value.Plain : Value → Prop
  | .null => True
  | .bool _ => True
  | .number n => ∃ i, n = .ofInt i
  | .string s => s.isSome = true
  | .array items => PlainItems items
  | .object members => PlainMembers members

/-- Every item is such a value. -/
def PlainItems : List Value → Prop
  | [] => True
  | v :: vs => v.Plain ∧ PlainItems vs

/-- Every member is such a value under a text. -/
def PlainMembers : List (Option String × Value) → Prop
  | [] => True
  | (k, v) :: ms => k.isSome = true ∧ v.Plain ∧ PlainMembers ms

end

theorem plain_bool (b : Bool) : (Value.bool b).Plain := trivial

theorem plain_text (s : String) : (Value.text s).Plain := rfl

theorem plain_nat (n : Nat) : (Value.nat n).Plain := ⟨n, (Numeral.ofInt_natCast n).symm⟩

theorem plain_record {ms : List (String × Value)} (each : ∀ m ∈ ms, m.2.Plain) :
    (Value.record ms).Plain := by
  show PlainMembers (ms.map fun m => (some m.1, m.2))
  induction ms with
  | nil => exact trivial
  | cons m ms ih =>
    exact ⟨rfl, each m (List.mem_cons_self ..),
      ih fun m inside => each m (List.mem_cons_of_mem _ inside)⟩

theorem plain_array {vs : List Value} (each : ∀ v ∈ vs, v.Plain) : (Value.array vs).Plain := by
  show PlainItems vs
  induction vs with
  | nil => exact trivial
  | cons v vs ih =>
    exact ⟨each v (List.mem_cons_self ..), ih fun v inside => each v (List.mem_cons_of_mem _ inside)⟩

/-- A field that may be absent, where every value that it may have is kept. -/
theorem plain_optional {α : Type} {f : α → Value} (each : ∀ a, (f a).Plain) (o : Option α)
    (k : String) : ∀ m ∈ (o.map fun a => (k, f a)).toList, m.2.Plain := by
  cases o with
  | none => simp
  | some a => simpa using each a

/-- The written form of some tokens, as characters. -/
def spelling (ts : List Token) : List Char := ts.flatMap Token.chars

/-! ## Tokens -/

theorem isHexDigit_digitChar : ∀ n < 16, IsHexDigit (Nat.digitChar n) n := by decide

/-- A control character by the number of its one unit. -/
theorem spellsChar_control {c : Char} (control : c.toNat < 0x20) :
    SpellsChar c ['\\', 'u', '0', '0', Nat.digitChar (c.toNat / 16), Nat.digitChar (c.toNat % 16)] := by
  have units : Text.codeUnits c.toNat = [.ofNat c.toNat] := if_pos (by omega)
  have number : (UInt16.ofNat c.toNat).toNat = c.toNat :=
    UInt16.toNat_ofNat_of_lt (by unfold UInt16.size; omega)
  have zero := isHexDigit_digitChar 0 (by decide)
  have unit : SpellsUnit (.ofNat c.toNat)
      ['\\', 'u', '0', '0', Nat.digitChar (c.toNat / 16), Nat.digitChar (c.toNat % 16)] := by
    apply SpellsUnit.intro <;> rw [number]
    · rwa [Nat.div_eq_of_lt (by omega)]
    · rwa [Nat.div_eq_of_lt (by omega), Nat.zero_mod]
    · rw [Nat.mod_eq_of_lt (by omega)]
      exact isHexDigit_digitChar _ (by omega)
    · exact isHexDigit_digitChar _ (by omega)
  have each := List.Forall₂.cons unit .nil
  rw [← units] at each
  exact .units each

/-- The writer escapes what has to be escaped. -/
theorem spellsChar_escaped (c : Char) : SpellsChar c (escaped c) := by
  unfold escaped
  split
  case h_8 quote backslash _ _ _ _ _ =>
    by_cases control : c.toNat < 0x20
    · rw [if_pos control]
      exact spellsChar_control control
    · rw [if_neg control]
      exact .raw quote backslash (by omega)
  all_goals exact .short (by decide)

theorem spellsToken_text {s : Option String} (text : s.isSome = true) :
    SpellsToken (.string s) (Token.chars (.string s)) := by
  obtain ⟨s, rfl⟩ := Option.isSome_iff_exists.1 text
  refine .string (List.forall₂_map_right_iff.2 (List.forall₂_same.2 fun c _ => ?_))
  exact spellsChar_escaped c

theorem spellsToken_int (i : Int) :
    SpellsToken (.number (.ofInt i)) (Token.chars (.number (.ofInt i))) := by
  rw [Scan.chars_ofInt]
  exact .integer (decide (i < 0)) i.natAbs

mutual

/-- Every token of such a value is spelled as it is written. -/
theorem spellsToken_tokens : ∀ v : Value, v.Plain → ∀ t ∈ v.tokens, SpellsToken t t.chars
  | .null, _ => by simpa [Value.tokens] using .null
  | .bool true, _ => by simpa [Value.tokens] using .truth
  | .bool false, _ => by simpa [Value.tokens] using .falsity
  | .number n, plain => by
    obtain ⟨i, rfl⟩ : ∃ i, n = .ofInt i := plain
    simpa [Value.tokens] using spellsToken_int i
  | .string s, plain => by
    simpa [Value.tokens] using spellsToken_text (show s.isSome = true from plain)
  | .array items, plain => by
    have inside := spellsToken_itemTokens items plain
    simpa [Value.tokens, or_imp, forall_and] using ⟨SpellsToken.openArray, inside, .closeArray⟩
  | .object members, plain => by
    have inside := spellsToken_memberTokens members plain
    simpa [Value.tokens, or_imp, forall_and] using ⟨SpellsToken.openObject, inside, .closeObject⟩

/-- So is every token of its items. -/
theorem spellsToken_itemTokens : ∀ items : List Value, PlainItems items →
    ∀ t ∈ itemTokens items, SpellsToken t t.chars
  | [], _ => nofun
  | [v], plain => spellsToken_tokens v plain.1
  | v :: w :: vs, plain => by
    have first := spellsToken_tokens v plain.1
    have later := spellsToken_itemTokens (w :: vs) plain.2
    simpa [itemTokens, or_imp, forall_and] using ⟨first, SpellsToken.comma, later⟩

/-- And of its members. -/
theorem spellsToken_memberTokens : ∀ members : List (Option String × Value), PlainMembers members →
    ∀ t ∈ memberTokens members, SpellsToken t t.chars
  | [], _ => nofun
  | [(k, v)], plain => by
    have value := spellsToken_tokens v plain.2.1
    simpa [memberTokens, or_imp, forall_and] using
      ⟨spellsToken_text plain.1, SpellsToken.colon, value⟩
  | (k, v) :: m :: ms, plain => by
    have value := spellsToken_tokens v plain.2.1
    have later := spellsToken_memberTokens (m :: ms) plain.2.2
    simpa [memberTokens, or_imp, forall_and] using
      ⟨spellsToken_text plain.1, SpellsToken.colon, value, SpellsToken.comma, later⟩

end

/-! ## Values -/

/-- What is written is a spelling, with no white space. -/
theorem spelledBy_write {v : Value} (plain : v.Plain) : v.SpelledBy v.write := by
  have all {ts : List Token} (each : ∀ t ∈ ts, SpellsToken t t.chars) :
      SpellsAll ts (spelling ts) := by
    induction ts with
    | nil => exact .nil (List.forall_mem_nil _)
    | cons t ts ih =>
      exact .cons (List.forall_mem_nil _) (each t (List.mem_cons_self ..))
        (ih fun u inside => each u (List.mem_cons_of_mem _ inside))
  show SpellsAll v.tokens (String.ofList (spelling v.tokens)).toList
  rw [String.toList_ofList]
  exact all (spellsToken_tokens v plain)

/-- A value that the writer keeps is read back from its written form. -/
theorem parse?_write {v : Value} (plain : v.Plain) : parse? v.write = some v := by
  unfold parse?
  rw [tokens?_of_spelledBy (spelledBy_write plain), Option.bind_some, Value.ofTokens?_tokens]

end SnippetRunner.Json
