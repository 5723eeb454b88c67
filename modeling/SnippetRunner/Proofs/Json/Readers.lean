import SnippetRunner.Proofs.Json.Records
import SnippetRunner.Proofs.Json.RoundTrip

/-!
# Readers of JSON texts

What any reader makes of a text that spells an object. A reader is known by what it shows of the things
that it reads: the names of an object, the members under them, and the texts and integers among these.
Objects have no order, and how large an integer may be that comes out as it was written is up to the
reader. The reader of this library is one of them; it keeps every integer.
-/

namespace SnippetRunner.Json

/-- A reader that makes things of some type. -/
structure Reader (ρ : Type) where
  read : String → Option ρ
  /-- The names of the members, if the thing is an object. -/
  names : ρ → Option (List String)
  member : ρ → String → Option ρ
  text : ρ → Option String
  integer : ρ → Option Int

variable {ρ : Type} {ms : List (String × Value)} {text : String}

/-- The thing that has been read shows these members and no other ones, integers as far as the reader
keeps them. -/
structure Reader.Shows (x : Reader ρ) (exact : Int → Prop) (d : ρ) (ms : List (String × Value)) :
    Prop where
  names : ∃ names, x.names d = some names ∧ names.Perm (ms.map Prod.fst)
  texts {k s : String} : (k, .text s) ∈ ms → (x.member d k).bind x.text = some s
  integers {k : String} {i : Int} : (k, .int i) ∈ ms → exact i →
    (x.member d k).bind x.integer = some i

/-- A reader reads every spelling of an object no two of whose members have one name. -/
def Reader.Standard (x : Reader ρ) (exact : Int → Prop) : Prop :=
  ∀ (ms : List (String × Value)) (text : String), (ms.map Prod.fst).Nodup →
    (Value.record ms).SpelledBy text → ∃ d, x.read text = some d ∧ x.Shows exact d ms

/-- The reader of this library. -/
def reader : Reader Value where
  read := parse?
  names
    | .object ms => ms.mapM Prod.fst
    | _ => none
  member := Value.get?
  text
    | .string s => s
    | _ => none
  integer
    | .number n => n.int?
    | _ => none

/-- It keeps every integer. -/
theorem standard_reader : reader.Standard fun _ => True := by
  intro ms text distinct spelled
  have member : ∀ {k : String} {v : Value}, (k, v) ∈ ms → (Value.record ms).get? k = some v :=
    fun {k v} inside => get?_record_of_mem (List.nodup_iff_count_le_one.1 distinct k) inside
  refine ⟨.record ms, ?_, ⟨ms.map Prod.fst, ?_, .refl _⟩, ?_, ?_⟩
  · show parse? text = some (.record ms)
    unfold parse?
    rw [tokens?_of_spelledBy spelled, Option.bind_some, Value.ofTokens?_tokens]
  · show (ms.map fun m => (some m.1, m.2)).mapM Prod.fst = some (ms.map Prod.fst)
    rw [List.mapM_map]
    exact mapM_eq_some_map fun _ _ => rfl
  · intro k s inside
    show ((Value.record ms).get? k).bind reader.text = some s
    rw [member inside]
    rfl
  · intro k i inside _
    show ((Value.record ms).get? k).bind reader.integer = some i
    rw [member inside]
    exact Numeral.int?_ofInt i

/-- White space may follow the last token. -/
theorem SpellsAll.append_white {ts : List Token} {cs white : List Char} (h : SpellsAll ts cs)
    (is : IsWhite white) : SpellsAll ts (cs ++ white) := by
  induction h with
  | nil before =>
    refine .nil fun c inside => ?_
    exact (List.mem_append.1 inside).elim (before c) (is c)
  | cons before token _ ih =>
    rw [List.append_assoc]
    exact .cons before token ih

/-- So a newline may follow a text. -/
theorem spelledBy_newline {v : Value} (h : v.SpelledBy text) : v.SpelledBy (text ++ "\n") := by
  have newline : IsWhite ['\n'] := by simp [IsWhite]
  show SpellsAll v.tokens (text ++ "\n").toList
  rw [String.toList_append]
  exact h.append_white newline

end SnippetRunner.Json
