import SnippetRunner.Json.Token
import SnippetRunner.Text.Blank

/-!
# Scanning in pieces

The scanner reads a text piece by piece. Most pieces are complete tokens wherever they stand; a number
is complete only once a character comes that cannot belong to it.
-/

namespace SnippetRunner.Json

/-- A character that cannot belong to a number after its digits before the point. -/
def Stops (c : Char) : Prop := Text.digit? c = none ∧ c ≠ '.' ∧ c ≠ 'e' ∧ c ≠ 'E'

instance (c : Char) : Decidable (Stops c) := inferInstanceAs (Decidable (_ ∧ _))

namespace Scan

/-- Some characters more. -/
def run (s : Scan) (cs : List Char) : Option Scan := cs.foldlM push s

@[simp] theorem run_cons (s : Scan) (c : Char) (cs : List Char) :
    s.run (c :: cs) = (s.push c).bind (·.run cs) := rfl

@[simp] theorem run_append (s : Scan) (cs ds : List Char) :
    s.run (cs ++ ds) = (s.run cs).bind (·.run ds) :=
  List.foldlM_append

variable {cs ds : List Char} {ts us : List Token} {c : Char}

/-- Between tokens, these characters are these tokens. -/
def Spells (cs : List Char) (ts : List Token) : Prop :=
  ∀ before, run ⟨before, .between⟩ cs = some ⟨ts.reverse ++ before, .between⟩

/-- They are so where the next character stops a number. -/
def SpellsBefore (cs : List Char) (ts : List Token) : Prop :=
  ∀ before c, Stops c →
    run ⟨before, .between⟩ (cs ++ [c]) = run ⟨ts.reverse ++ before, .between⟩ [c]

theorem Spells.nil : Spells [] [] := fun _ => rfl

theorem Spells.append (first : Spells cs ts) (second : Spells ds us) :
    Spells (cs ++ ds) (ts ++ us) := by
  intro before
  rw [run_append, first before, Option.bind_some, second, List.reverse_append, List.append_assoc]

/-- Tokens that are complete by themselves need no other character. -/
theorem Spells.before (h : Spells cs ts) : SpellsBefore cs ts := by
  intro before c _
  rw [run_append, h before]
  rfl

/-- A character that stops a number, with what comes after it. -/
theorem SpellsBefore.append (first : SpellsBefore cs ts) (stops : Stops c)
    (second : Spells (c :: ds) us) : Spells (cs ++ c :: ds) (ts ++ us) := by
  intro before
  have split : cs ++ c :: ds = (cs ++ [c]) ++ ds := by simp
  have joined := second (ts.reverse ++ before)
  rw [← List.singleton_append, run_append] at joined
  rw [split, run_append, first before c stops, joined, List.reverse_append, List.append_assoc]

/-- Tokens that are complete by themselves, before others. -/
theorem Spells.appendBefore (first : Spells cs ts) (second : SpellsBefore ds us) :
    SpellsBefore (cs ++ ds) (ts ++ us) := by
  intro before c stops
  rw [List.append_assoc, run_append, first before, Option.bind_some, second _ c stops,
    List.reverse_append, List.append_assoc]

/-- What stands between the braces of an object. -/
theorem spells_braces {cs : List Char} {ts : List Token} (inside : SpellsBefore cs ts) :
    Spells ('\x7b' :: cs ++ ['\x7d']) (.openObject :: ts ++ [.closeObject]) := by
  have opened : Spells ['\x7b'] [.openObject] := fun _ => rfl
  have closed : Spells ['\x7d'] [.closeObject] := fun _ => rfl
  exact opened.append (inside.append (by decide) closed)

/-- A text that is tokens. -/
theorem tokens?_of_spells (h : Spells cs ts) : tokens? (String.ofList cs) = some ts := by
  show (run start (String.ofList cs).toList).bind close? = some ts
  rw [String.toList_ofList, start, h [], List.append_nil, Option.bind_some]
  exact congrArg some (List.reverse_reverse ts)

/-! ## Blank texts -/

/-- A blank character stands between tokens, or no token begins with it. -/
theorem fresh_of_isBlank (blank : Text.isBlank c = true) :
    fresh ts c = if isSpace c then some ⟨ts, .between⟩ else none := by
  have other {d : Char} (visible : Text.isBlank d = false) : c ≠ d := by
    intro same
    rw [same, visible] at blank
    cases blank
  have noDigit : Text.digit? c = none := by
    unfold Text.digit?
    apply if_neg
    rintro ⟨low, high⟩
    have low : 48 ≤ c.toNat := low
    have high : c.toNat ≤ 57 := high
    unfold Text.isBlank at blank
    simp only [Bool.or_eq_true, Bool.and_eq_true, decide_eq_true_eq, beq_iff_eq] at blank
    omega
  have noNumber : Digits.start? c = none := by
    unfold Digits.start?
    rw [if_neg (other (by decide)), if_neg (other (by decide)), noDigit]
    rfl
  unfold fresh
  by_cases space : isSpace c = true
  · rw [if_pos space, if_pos space]
  · rw [if_neg space, if_neg space]
    -- every character with which a token begins is visible
    split
    all_goals first
      | exact absurd rfl (other (by decide))
      | rw [noNumber]; rfl

/-- Blank characters are no tokens. -/
theorem run_of_blank (blank : cs.all Text.isBlank = true) :
    run ⟨ts, .between⟩ cs = some ⟨ts, .between⟩ ∨ run ⟨ts, .between⟩ cs = none := by
  induction cs with
  | nil => exact .inl rfl
  | cons c cs ih =>
    rw [List.all_cons, Bool.and_eq_true] at blank
    have first : push ⟨ts, .between⟩ c = _ := fresh_of_isBlank blank.1
    rw [run_cons, first]
    split
    · exact ih blank.2
    · exact .inr rfl

/-- A blank text is no tokens, or no JSON text at all. -/
theorem tokens?_of_allBlank {s : String} (blank : Text.allBlank s = true) :
    tokens? s = some [] ∨ tokens? s = none := by
  show (run start s.toList).bind close? = _ ∨ (run start s.toList).bind close? = _
  have scanned : run start s.toList = some start ∨ run start s.toList = none := run_of_blank blank
  rcases scanned with read | refused
  · exact .inl (congrArg (Option.bind · close?) read)
  · exact .inr (congrArg (Option.bind · close?) refused)

end Scan

end SnippetRunner.Json
