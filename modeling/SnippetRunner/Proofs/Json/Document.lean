import SnippetRunner.Json.Document

/-!
# Values and their tokens

The tokens of a value read back as it, whatever is open around it, so that a written value is a value
again. The induction is on the value, with the items of an array and the members of an object beside
it; the stack of the reader is arbitrary throughout.
-/

namespace SnippetRunner.Json

namespace Reading

/-- Some tokens more. -/
def run (r : Reading) (ts : List Token) : Option Reading := ts.foldlM push r

variable {outer : List Frame} {t : Token}

theorem run_cons (r : Reading) (t : Token) (ts : List Token) :
    r.run (t :: ts) = (r.push t).bind (·.run ts) := rfl

theorem run_append (r : Reading) (ts us : List Token) :
    r.run (ts ++ us) = (r.run ts).bind (·.run us) :=
  List.foldlM_append

/-- The first item of an array is read as any other one. -/
theorem push_opened (h : t ≠ .closeArray) :
    push (.opened outer) t = push (.value (.items [] :: outer)) t := by
  cases t <;> first | rfl | exact absurd rfl h

/-- The first key of an object is read as any other one. -/
theorem push_openedObject (k : Option String) :
    push (.openedObject outer) (.string k) = push (.key [] outer) (.string k) := rfl

end Reading

/-- The tokens of a value do not begin with the end of an array. -/
theorem Value.tokens_eq_cons (v : Value) : ∃ t ts, v.tokens = t :: ts ∧ t ≠ .closeArray := by
  cases v <;> unfold tokens <;> exact ⟨_, _, rfl, by simp⟩

/-- Neither do those of some items. -/
theorem itemTokens_eq_cons (v : Value) (vs : List Value) :
    ∃ t ts, itemTokens (v :: vs) = t :: ts ∧ t ≠ .closeArray := by
  obtain ⟨t, ts, first, other⟩ := v.tokens_eq_cons
  cases vs with
  | nil => exact ⟨t, ts, first, other⟩
  | cons w vs =>
    refine ⟨t, ts ++ .comma :: itemTokens (w :: vs), ?_, other⟩
    show v.tokens ++ _ = _
    rw [first]
    rfl

/-- The tokens of some members begin with a key. -/
theorem memberTokens_eq_cons (m : Option String × Value) (ms : List (Option String × Value)) :
    ∃ ts, memberTokens (m :: ms) = .string m.1 :: ts := by
  cases ms <;> exact ⟨_, rfl⟩

namespace Reading

mutual

/-- The tokens of a value make the value, and it takes its place. -/
theorem run_tokens : ∀ (v : Value) (outer : List Frame),
    run (.value outer) v.tokens = some (place v outer)
  | .null, _ => rfl
  | .bool _, _ => rfl
  | .number _, _ => rfl
  | .string _, _ => rfl
  | .array items, outer => by
    show run (.opened outer) (itemTokens items ++ [.closeArray]) = _
    cases items with
    | nil => rfl
    | cons v vs =>
      -- the first token is not the one that closes, so it is read as that of an item
      have all := run_itemTokens (v :: vs) [] outer (List.cons_ne_nil v vs)
      obtain ⟨t, ts, first, other⟩ := itemTokens_eq_cons v vs
      rw [first, run_cons, ← push_opened other, ← run_cons, ← first] at all
      rw [run_append, all, List.append_nil, Option.bind_some]
      show some (place (.array (v :: vs).reverse.reverse) outer) = _
      rw [List.reverse_reverse]
  | .object members, outer => by
    show run (.openedObject outer) (memberTokens members ++ [.closeObject]) = _
    cases members with
    | nil => rfl
    | cons m ms =>
      -- the first token is a key
      have all := run_memberTokens (m :: ms) [] outer (List.cons_ne_nil m ms)
      obtain ⟨ts, first⟩ := memberTokens_eq_cons m ms
      rw [first, run_cons, ← push_openedObject, ← run_cons, ← first] at all
      rw [run_append, all, List.append_nil, Option.bind_some]
      show some (place (.object (m :: ms).reverse.reverse) outer) = _
      rw [List.reverse_reverse]

/-- The tokens of some items make the items. -/
theorem run_itemTokens : ∀ (items done : List Value) (outer : List Frame), items ≠ [] →
    run (.value (.items done :: outer)) (itemTokens items) =
      some (.afterItem (items.reverse ++ done) outer)
  | [], _, _, some_ => absurd rfl some_
  | [v], done, outer, _ => run_tokens v (.items done :: outer)
  | v :: w :: vs, done, outer, _ => by
    have later := run_itemTokens (w :: vs) (v :: done) outer (List.cons_ne_nil w vs)
    show run _ (v.tokens ++ .comma :: itemTokens (w :: vs)) = _
    rw [run_append, run_tokens v (.items done :: outer), Option.bind_some]
    show run (.value (.items (v :: done) :: outer)) (itemTokens (w :: vs)) = _
    rw [later, List.reverse_cons (a := v), List.append_assoc]
    rfl

/-- The tokens of some members make the members. -/
theorem run_memberTokens : ∀ (members done : List (Option String × Value)) (outer : List Frame),
    members ≠ [] →
    run (.key done outer) (memberTokens members) =
      some (.afterMember (members.reverse ++ done) outer)
  | [], _, _, some_ => absurd rfl some_
  | [(k, v)], done, outer, _ => run_tokens v (.members done k :: outer)
  | (k, v) :: m :: ms, done, outer, _ => by
    have later := run_memberTokens (m :: ms) ((k, v) :: done) outer (List.cons_ne_nil m ms)
    show run _ (.string k :: .colon :: v.tokens ++ .comma :: memberTokens (m :: ms)) = _
    rw [run_append]
    show Option.bind (run (.value (.members done k :: outer)) v.tokens) _ = _
    rw [run_tokens v (.members done k :: outer), Option.bind_some]
    show run (.key ((k, v) :: done) outer) (memberTokens (m :: ms)) = _
    rw [later, List.reverse_cons (a := (k, v)), List.append_assoc]
    rfl

end

end Reading

/-- The tokens of a value are read as the value. -/
theorem Value.ofTokens?_tokens (v : Value) : Value.ofTokens? v.tokens = some v := by
  show (Reading.run (.value []) v.tokens).bind Reading.value? = some v
  rw [Reading.run_tokens]
  rfl

end SnippetRunner.Json
