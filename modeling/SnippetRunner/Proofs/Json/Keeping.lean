import SnippetRunner.Proofs.Json.Document
import SnippetRunner.Proofs.Json.Numbers

/-!
# Values that are kept whole

A text is kept as a value if every string in it denotes a text, every number lies in the range of a
double, and not too many arrays and objects are open at once. For an object this is a matter of its
members.
-/

namespace SnippetRunner.Json

/-! ## Parts -/

variable {v : Value} {ms : List (Option String × Value)}

/-- A value of which all parts can be kept. -/
def Value.Keeps (v : Value) : Prop := v.tokens.all Token.kept = true

theorem keeps_string {s : Option String} : (Value.string s).Keeps ↔ s.isSome = true := by
  unfold Value.Keeps Value.tokens
  rw [List.all_cons, List.all_nil, Bool.and_true]
  rfl

theorem keeps_int {i : Int} (fits : i.natAbs ≤ Text.maxWord) : (Value.int i).Keeps := by
  have inRange : Token.kept (.number (.ofInt i)) = true := Numeral.inRange_ofInt fits
  show [Token.number (.ofInt i)].all Token.kept = true
  rw [List.all_cons, List.all_nil, inRange]
  rfl

/-- The members of an object that can be kept. -/
theorem all_kept_memberTokens (ms : List (Option String × Value)) :
    (memberTokens ms).all Token.kept = true ↔ ∀ m ∈ ms, m.1.isSome = true ∧ m.2.Keeps := by
  induction ms with
  | nil => simp [memberTokens]
  | cons m ms ih =>
    obtain ⟨k, v⟩ := m
    cases ms with
    | nil =>
      simp [memberTokens, Value.Keeps, Token.kept]
    | cons n ms =>
      rw [List.forall_mem_cons, ← ih]
      simp only [memberTokens, List.all_append, List.all_cons, Bool.and_eq_true, Value.Keeps,
        Token.kept, true_and, and_assoc]

theorem keeps_object : (Value.object ms).Keeps ↔ ∀ m ∈ ms, m.1.isSome = true ∧ m.2.Keeps := by
  rw [← all_kept_memberTokens]
  unfold Value.Keeps Value.tokens
  simp [Token.kept]

/-- The members of a record are under texts. -/
theorem keeps_record {ms : List (String × Value)} :
    (Value.record ms).Keeps ↔ ∀ m ∈ ms, m.2.Keeps := by
  unfold Value.record
  rw [keeps_object, List.forall_mem_map]
  exact forall₂_congr fun _ _ => and_iff_right rfl

/-! ## Nesting -/

namespace Value

/-- No more than so many arrays and objects are open at once inside the value, itself included. -/
def Within (depth : Nat) (v : Value) : Prop :=
  ∀ s, (nestingFrom s v.tokens).1 = s.1 ∧ (nestingFrom s v.tokens).2 ≤ max s.2 (s.1 + depth)

end Value

theorem nestingFrom_append (s : Nat × Nat) (ts us : List Token) :
    nestingFrom s (ts ++ us) = nestingFrom (nestingFrom s ts) us :=
  List.foldl_append

/-- Members are as deep as the deepest of them. -/
theorem within_memberTokens {depth : Nat} (each : ∀ m ∈ ms, m.2.Within depth) (s : Nat × Nat) :
    (nestingFrom s (memberTokens ms)).1 = s.1 ∧
      (nestingFrom s (memberTokens ms)).2 ≤ max s.2 (s.1 + depth) := by
  induction ms generalizing s with
  | nil => exact ⟨rfl, Nat.le_max_left ..⟩
  | cons m ms ih =>
    obtain ⟨k, v⟩ := m
    have first := each (k, v) (List.mem_cons_self ..) s
    cases ms with
    | nil => exact first
    | cons n ms =>
      have later := ih (fun m inside => each m (List.mem_cons_of_mem _ inside)) (nestingFrom s v.tokens)
      show (nestingFrom s (v.tokens ++ .comma :: memberTokens (n :: ms))).1 = s.1 ∧
        (nestingFrom s (v.tokens ++ .comma :: memberTokens (n :: ms))).2 ≤ _
      rw [nestingFrom_append]
      show (nestingFrom (nestingFrom s v.tokens) (memberTokens (n :: ms))).1 = s.1 ∧
        (nestingFrom (nestingFrom s v.tokens) (memberTokens (n :: ms))).2 ≤ _
      dsimp only at first
      omega

/-- An object is one deeper than its members. -/
theorem within_object {depth : Nat} (each : ∀ m ∈ ms, m.2.Within depth) :
    (Value.object ms).Within (depth + 1) := by
  intro s
  have inside := within_memberTokens each (s.1 + 1, max s.2 (s.1 + 1))
  show (nestingFrom (s.1 + 1, max s.2 (s.1 + 1)) (memberTokens ms ++ [.closeObject])).1 = s.1 ∧
    (nestingFrom (s.1 + 1, max s.2 (s.1 + 1)) (memberTokens ms ++ [.closeObject])).2 ≤ _
  rw [nestingFrom_append]
  show (nestingFrom _ (memberTokens ms)).1 - 1 = s.1 ∧ (nestingFrom _ (memberTokens ms)).2 ≤ _
  omega

theorem within_record {depth : Nat} {ms : List (String × Value)}
    (each : ∀ m ∈ ms, m.2.Within depth) : (Value.record ms).Within (depth + 1) :=
  within_object (List.forall_mem_map.2 each)

theorem nesting_le_of_within {depth : Nat} (h : v.Within depth) : nesting v.tokens ≤ depth := by
  have bound := (h (0, 0)).2
  unfold nesting
  omega

/-! ## Reading -/

/-- A value that is not too deep is kept if its parts can be. -/
theorem parseKept?_of_shallow {text : String} (tokens : tokens? text = some v.tokens)
    (shallow : nesting v.tokens ≤ maxNesting) :
    parseKept? text = if v.tokens.all Token.kept = true then some v else none := by
  unfold parseKept?
  rw [tokens]
  show Option.bind (guard _) (fun _ => Value.ofTokens? v.tokens) = _
  rw [Value.ofTokens?_tokens, decide_eq_true shallow, Bool.true_and]
  unfold guard
  split <;> rfl

end SnippetRunner.Json
