import SnippetRunner.Proofs.Json.Document
import SnippetRunner.Proofs.Json.Scanning

/-!
# Parts of a written string, read by themselves

Where a written string is cut into lines, a reader meets its parts one by one. What comes before the
first cut ends inside a string. A part from the middle holds no quote that is not escaped, and no
escape stands outside a string, so no string is read in it at all; the value it denotes, if any, has
no member. In the last part the closing quote opens a string instead.
-/

namespace SnippetRunner.Json

/-! ## Texts that end inside a string -/

/-- A text that ends inside a string is no JSON text. -/
theorem parse?_of_open {cs : List Char} {ts : List Token} {q : Quote}
    (inside : Scan.start.run cs = some ⟨ts, .string q⟩) : parse? (String.ofList cs) = none := by
  have noTokens : tokens? (String.ofList cs) = none := by
    show (Scan.run .start (String.ofList cs).toList).bind Scan.close? = none
    rw [String.toList_ofList, inside]
    rfl
  unfold parse?
  rw [noTokens]
  rfl

/-! ## Texts without a string -/

/-- No string among the tokens. -/
def Stringless (ts : List Token) : Prop := ∀ k, Token.string k ∉ ts

theorem Stringless.cons {t : Token} {ts : List Token} (first : ∀ k, t ≠ .string k)
    (rest : Stringless ts) : Stringless (t :: ts) := by
  intro k inside
  rcases List.mem_cons.1 inside with is | inside
  · exact first k is.symm
  · exact rest k inside

/-- No string has begun, and the word that has ends without a quote or a backslash. -/
def Mode.Unquoted : Mode → Prop
  | .between => True
  | .word cs t => (∀ c ∈ cs, c ≠ '"' ∧ c ≠ '\\') ∧ ∀ k, t ≠ .string k
  | .number _ => True
  | .string _ => False

namespace Scan

variable {s s' : Scan} {ts : List Token} {c : Char}

/-- No string has been read or has begun. -/
structure Unquoted (s : Scan) : Prop where
  tokens : Stringless s.tokens
  mode : s.mode.Unquoted

theorem unquoted_start : Unquoted start := ⟨fun _ h => absurd h (by simp [start]), trivial⟩

/-- Between tokens only a quote begins a string. -/
theorem unquoted_of_fresh (before : Stringless ts) (other : c ≠ '"') (h : fresh ts c = some s) :
    s.Unquoted := by
  unfold fresh at h
  split at h
  · cases h
    exact ⟨before, trivial⟩
  · split at h
    -- one case for each character that is or begins a token, in the order of the definition
    case h_7 => exact absurd rfl other
    case h_11 =>
      obtain ⟨d, -, rfl⟩ := Option.map_eq_some_iff.1 h
      exact ⟨before, trivial⟩
    case h_8 | h_9 | h_10 =>
      cases h
      exact ⟨before, by simp, fun _ => by simp⟩
    all_goals
      cases h
      exact ⟨before.cons fun _ => by simp, trivial⟩

/-- A character other than a quote goes on without a string. -/
theorem Unquoted.push (unquoted : s.Unquoted) (other : c ≠ '"') (h : s.push c = some s') :
    s'.Unquoted := by
  obtain ⟨ts, mode⟩ := s
  obtain ⟨before, free⟩ := unquoted
  unfold Scan.push at h
  cases mode with
  | between => exact unquoted_of_fresh before other h
  | word cs t =>
    have ended : Stringless (t :: ts) := before.cons free.2
    match cs, free with
    | [], _ => exact unquoted_of_fresh ended other h
    | [x], _ =>
      obtain ⟨-, rfl⟩ := Option.ite_none_right_eq_some.1 h |>.imp_right Option.some.inj
      exact ⟨ended, trivial⟩
    | x :: y :: cs, free =>
      obtain ⟨-, rfl⟩ := Option.ite_none_right_eq_some.1 h |>.imp_right Option.some.inj
      exact ⟨before, fun z inside => free.1 z (List.mem_cons_of_mem _ inside), free.2⟩
  | number d =>
    simp only at h
    split at h
    · cases h
      exact ⟨before, trivial⟩
    · cases h
    · obtain ⟨n, -, h⟩ := Option.bind_eq_some_iff.1 h
      exact unquoted_of_fresh (before.cons fun _ => by simp) other h
  | string q => exact free.elim

/-- A number goes on with a digit, a point, a sign or a mark only. -/
theorem Digits.push_ne_more (d d' : Digits) (other : c = '"' ∨ c = '\\') : d.push c ≠ .more d' := by
  have noDigit : Text.digit? c = none := by
    rcases other with rfl | rfl <;> decide
  unfold Digits.push
  rw [noDigit]
  cases part : d.part <;> rcases other with rfl | rfl <;> simp

/-- No backslash stands outside a string. -/
theorem Unquoted.push_backslash (unquoted : s.Unquoted) : s.push '\\' = none := by
  obtain ⟨ts, mode⟩ := s
  obtain ⟨-, free⟩ := unquoted
  have nothing : ∀ ts, fresh ts '\\' = none := fun _ => rfl
  unfold Scan.push
  cases mode with
  | between => exact nothing ts
  | word cs t =>
    match cs, free with
    | [], _ => exact nothing (t :: ts)
    | [x], free => exact if_neg fun is => (free.1 x (List.mem_cons_self ..)).2 is.symm
    | x :: y :: cs, free => exact if_neg fun is => (free.1 x (List.mem_cons_self ..)).2 is.symm
  | number d =>
    simp only
    split
    next d' more => exact absurd more (Digits.push_ne_more d d' (.inr rfl))
    next => rfl
    next => simp only [nothing, Option.bind_fun_none]
  | string q => exact free.elim

/-- A quote begins a string, or cannot stand. -/
theorem Unquoted.push_quote (unquoted : s.Unquoted) (h : s.push '"' = some s') :
    s'.mode = .string .start := by
  obtain ⟨ts, mode⟩ := s
  obtain ⟨-, free⟩ := unquoted
  have opens : ∀ {ts}, fresh ts '"' = some s' → s'.mode = .string .start := by
    rintro ts ⟨⟩
    rfl
  unfold Scan.push at h
  cases mode with
  | between => exact opens h
  | word cs t =>
    match cs, free with
    | [], _ => exact opens h
    | [x], free =>
      exact absurd (Option.ite_none_right_eq_some.1 h).1.symm (free.1 x (List.mem_cons_self ..)).1
    | x :: y :: cs, free =>
      exact absurd (Option.ite_none_right_eq_some.1 h).1.symm (free.1 x (List.mem_cons_self ..)).1
  | number d =>
    simp only at h
    split at h
    next d' more => exact absurd more (Digits.push_ne_more d d' (.inl rfl))
    next => cases h
    next =>
      obtain ⟨n, -, h⟩ := Option.bind_eq_some_iff.1 h
      exact opens h
  | string q => exact free.elim

end Scan

/-! ## Values without a member -/

/-- The value has no member. -/
def Value.Memberless (v : Value) : Prop := ∀ ms, v = .object ms → ms = []

namespace Reading

/-- Only arrays are open. -/
def ArraysOnly (outer : List Frame) : Prop := ∀ f ∈ outer, ∃ done, f = .items done

/-- No member has been read or has begun. -/
def Bare : Reading → Prop
  | .value outer | .opened outer | .openedObject outer | .afterItem _ outer => ArraysOnly outer
  | .key .. | .colon .. | .afterMember .. => False
  | .whole v => v.Memberless

variable {r r' : Reading} {outer : List Frame} {t : Token} {v : Value}

theorem bare_place (memberless : v.Memberless) (arrays : ArraysOnly outer) :
    (place v outer).Bare := by
  cases outer with
  | nil => exact memberless
  | cons f outer =>
    obtain ⟨done, rfl⟩ := arrays f (List.mem_cons_self ..)
    exact fun g inside => arrays g (List.mem_cons_of_mem _ inside)

theorem ArraysOnly.items (arrays : ArraysOnly outer) (done : List Value) :
    ArraysOnly (.items done :: outer) := by
  intro f inside
  rcases List.mem_cons.1 inside with rfl | inside
  · exact ⟨done, rfl⟩
  · exact arrays f inside

/-- A token that begins a value. -/
theorem bare_of_begin (arrays : ArraysOnly outer) (h : begin t outer = some r) : r.Bare := by
  cases t with
  | null | bool | number | string =>
    cases h
    exact bare_place (fun ms is => by cases is) arrays
  | openArray | openObject =>
    cases h
    exact arrays
  | closeArray | closeObject | colon | comma => cases h

/-- Without a string no member begins. -/
theorem Bare.push (bare : r.Bare) (other : ∀ k, t ≠ .string k) (h : r.push t = some r') :
    r'.Bare := by
  have noMembers : Value.Memberless (.object []) := fun ms is => by
    cases is
    rfl
  have noObject : ∀ items, Value.Memberless (.array items) := fun items ms is => by cases is
  cases r with
  | value outer => exact bare_of_begin bare h
  | opened outer =>
    by_cases closes : t = .closeArray
    · rw [closes] at h
      cases h
      exact bare_place (noObject []) bare
    · rw [push_opened closes] at h
      exact bare_of_begin (bare.items []) h
  | openedObject outer =>
    cases t with
    | closeObject =>
      cases h
      exact bare_place noMembers bare
    | string k => exact absurd rfl (other k)
    | _ => cases h
  | afterItem done outer =>
    cases t with
    | comma =>
      cases h
      exact bare.items done
    | closeArray =>
      cases h
      exact bare_place (noObject done.reverse) bare
    | _ => cases h
  | key | colon | afterMember => exact bare.elim
  | whole v => cases t <;> cases h

theorem Bare.run (bare : r.Bare) {ts : List Token} (stringless : Stringless ts)
    (h : r.run ts = some r') : r'.Bare := by
  induction ts generalizing r with
  | nil =>
    cases h
    exact bare
  | cons t ts ih =>
    obtain ⟨next, first, later⟩ := Option.bind_eq_some_iff.1 (run_cons r t ts ▸ h)
    have other : ∀ k, t ≠ .string k := fun k is => stringless k (is ▸ List.mem_cons_self ..)
    exact ih (bare.push other first) (fun k inside => stringless k (List.mem_cons_of_mem _ inside))
      later

end Reading

/-- Tokens without a string write a value without a member. -/
theorem memberless_of_stringless {ts : List Token} {v : Value} (stringless : Stringless ts)
    (h : Value.ofTokens? ts = some v) : v.Memberless := by
  obtain ⟨r, ran, whole⟩ := Option.bind_eq_some_iff.1 (show (Reading.run (.value []) ts).bind
    Reading.value? = some v from h)
  have bare : r.Bare := by
    refine Reading.Bare.run (r := .value []) (fun f inside => ?_) stringless ran
    cases inside
  cases r with
  | whole w =>
    cases whole
    exact bare
  | _ => cases whole

/-- A text in which no string has begun denotes a value without a member, if any. -/
theorem memberless_of_unquoted {cs : List Char}
    (unquoted : ∀ s, Scan.start.run cs = some s → s.Unquoted) {v : Value}
    (h : parse? (String.ofList cs) = some v) : v.Memberless := by
  obtain ⟨ts, tokens, value⟩ := Option.bind_eq_some_iff.1 h
  obtain ⟨s, ran, closed⟩ := Option.bind_eq_some_iff.1 (show (Scan.run .start
    (String.ofList cs).toList).bind Scan.close? = some ts from tokens)
  rw [String.toList_ofList] at ran
  obtain ⟨before, free⟩ := unquoted s ran
  apply memberless_of_stringless _ value
  intro k inside
  unfold Scan.close? at closed
  split at closed
  · cases closed
    exact before k (List.mem_reverse.1 inside)
  · obtain ⟨n, -, rfl⟩ := Option.map_eq_some_iff.1 closed
    rcases List.mem_cons.1 (List.mem_reverse.1 inside) with is | inside
    · cases is
    · exact before k inside
  · cases closed

end SnippetRunner.Json
