import SnippetRunner.Proofs.Driver.Values
import SnippetRunner.Proofs.Text.Encoding
import SnippetRunner.Text.Blank

/-!
# How the drivers' lines look

No line of a driver holds a control character, so each event is exactly one line. A piece of output
makes a line that is far from too long, however its characters have to be escaped.
-/

namespace SnippetRunner.Driver

open SnippetRunner.Text (codeUnits isHigh isLow)

/-! ## Control characters -/

/-- None of the characters is a control character below the space. -/
def Visible (cs : List Char) : Prop := ∀ c ∈ cs, 0x20 ≤ c.toNat

instance (cs : List Char) : Decidable (Visible cs) := List.decidableBAll _ cs

namespace Visible

variable {cs ds : List Char} {c : Char}

theorem nil : Visible [] := fun _ h => absurd h (by simp)

theorem append (first : Visible cs) (second : Visible ds) : Visible (cs ++ ds) := by
  intro c h
  exact (List.mem_append.1 h).elim (first c) (second c)

theorem cons (head : 0x20 ≤ c.toNat) (rest : Visible cs) : Visible (c :: cs) := by
  intro d h
  rcases List.mem_cons.1 h with rfl | h
  · exact head
  · exact rest d h

theorem flatMap {α : Type} {f : α → List Char} (each : ∀ a, Visible (f a)) (as : List α) :
    Visible (as.flatMap f) := by
  intro c h
  obtain ⟨a, -, inside⟩ := List.mem_flatMap.1 h
  exact each a c inside

end Visible

theorem visible_hexDigit : ∀ n < 16, 0x20 ≤ (Nat.digitChar n).toNat := by decide

theorem visible_escaped (c : Char) : Visible (Json.escaped c) := by
  unfold Json.escaped
  split
  case h_8 =>
    by_cases control : c.toNat < 0x20
    · rw [if_pos control]
      have first := visible_hexDigit (c.toNat / 16) (by omega)
      have second := visible_hexDigit (c.toNat % 16) (by omega)
      have escape : Visible ['\\', 'u', '0', '0'] := by decide
      exact escape.append (.cons first (.cons second .nil))
    · rw [if_neg control]
      exact .cons (by omega) .nil
  all_goals decide

theorem visible_unicodeEscape (u : UInt16) : Visible (unicodeEscape u) := by
  have small : u.toNat < 0x10000 := u.toNat_lt
  have escape : Visible ['\\', 'u'] := by decide
  have first := visible_hexDigit (u.toNat / 0x1000) (by omega)
  have second := visible_hexDigit (u.toNat / 0x100 % 0x10) (by omega)
  have third := visible_hexDigit (u.toNat / 0x10 % 0x10) (by omega)
  have last := visible_hexDigit (u.toNat % 0x10) (by omega)
  exact escape.append (.cons first (.cons second (.cons third (.cons last .nil))))

theorem Python.visible_escape (c : CodePoint) : Visible (escape c) := by
  unfold escape
  split
  · exact visible_escaped _
  · exact .flatMap visible_unicodeEscape _

theorem JavaScript.visible_escapeUnit (u : UInt16) : Visible (escape.escapeUnit u) := by
  unfold escape.escapeUnit
  split
  · exact visible_unicodeEscape u
  · exact visible_escaped _

theorem JavaScript.visible_escape (s : Str) : Visible (escape s) := by
  induction s using escape.induct with
  | case1 => exact .nil
  | case2 u => exact visible_escapeUnit u
  | case3 u v us pair ih =>
    obtain ⟨high, low⟩ : isHigh u = true ∧ isLow v = true := by simpa using pair
    have large := Text.le_toNat_ofPair high low
    rw [escape, if_pos pair]
    exact .cons (by omega) ih
  | case4 u v us single ih =>
    rw [escape, if_neg single]
    exact (visible_escapeUnit u).append ih

namespace Dialect

variable {d : Dialect}

theorem visible_quote (d : Dialect) (s : d.Str) : Visible (d.quote s) := by
  have quote : Visible ['"'] := by decide
  cases d with
  | python => exact (quote.append (.flatMap Python.visible_escape s)).append quote
  | javaScript => exact (quote.append (JavaScript.visible_escape s)).append quote

theorem visible_gap (d : Dialect) : Visible d.gap := by
  cases d <;> decide

end Dialect

theorem visible_int (i : Int) : Visible (Json.Token.number (.ofInt i)).chars := by
  rw [Json.Scan.chars_ofInt]
  apply Visible.append
  · split <;> decide
  · intro c h
    obtain ⟨n, digit, rfl⟩ := List.mem_map.1 h
    have small := Json.lt_ten_of_mem_digits digit
    exact visible_hexDigit n (by omega)

namespace Datum

variable {d : Dialect}

mutual

theorem visible_chars : ∀ v : Datum d.Str, Visible v.chars
  | .null => by
    unfold chars
    decide
  | .number i => by
    unfold chars
    exact visible_int i
  | .string s => by
    unfold chars
    exact Dialect.visible_quote d s
  | .object ms => by
    unfold chars
    exact (Visible.cons (by decide) (visible_memberChars ms)).append (by decide)

theorem visible_memberChars : ∀ ms : List (String × Datum d.Str), Visible (memberChars ms)
  | [] => .nil
  | [(k, v)] => by
    unfold memberChars
    exact ((Dialect.visible_quote d _).append (.cons (by decide) (Dialect.visible_gap d))).append
      (visible_chars v)
  | (k, v) :: m :: ms => by
    unfold memberChars
    exact ((((Dialect.visible_quote d _).append (.cons (by decide) (Dialect.visible_gap d))).append
      (visible_chars v)).append (.cons (by decide) (Dialect.visible_gap d))).append
        (visible_memberChars (m :: ms))

end

end Datum

/-- The line of an object holds no control character, and not only blanks. -/
theorem le_of_mem_utf8_line {d : Dialect} (event : Datum d.Str) :
    ∀ b ∈ Text.utf8 (d.line event), 0x20 ≤ b.toNat := by
  intro b h
  unfold Text.utf8 Dialect.line at h
  rw [String.toList_ofList] at h
  obtain ⟨c, inside, byte⟩ := List.mem_flatMap.1 h
  exact Text.le_of_mem_utf8EncodeChar (Datum.visible_chars event c inside) byte

theorem allBlank_line {d : Dialect} (ms : List (String × Datum d.Str)) :
    Text.allBlank (d.line (.object ms)) = false := by
  unfold Text.allBlank Dialect.line
  rw [String.toList_ofList]
  unfold Datum.chars
  rfl

/-! ## Long lines -/

/-- How long a string is, in the measure of its language. -/
def Dialect.size : (d : Dialect) → d.Str → Nat
  | .python => List.length
  | .javaScript => List.length

theorem length_escaped_le (c : Char) : (Json.escaped c).length ≤ 6 := by
  unfold Json.escaped
  split
  case h_8 => split <;> simp
  all_goals simp

theorem length_codeUnits_le (n : Nat) : (codeUnits n).length ≤ 2 := by
  unfold codeUnits
  split <;> simp

theorem length_unicodeEscapes (us : List UInt16) :
    (us.flatMap unicodeEscape).length = 6 * us.length := by
  induction us with
  | nil => rfl
  | cons u us ih =>
    have six : (unicodeEscape u).length = 6 := rfl
    rw [List.flatMap_cons, List.length_append, six, ih, List.length_cons]
    omega

theorem Python.length_escape_le (c : CodePoint) : (escape c).length ≤ 12 := by
  unfold escape
  split
  · exact (length_escaped_le _).trans (by decide)
  · have units := length_codeUnits_le c.val
    rw [length_unicodeEscapes]
    omega

theorem JavaScript.length_escapeUnit_le (u : UInt16) : (escape.escapeUnit u).length ≤ 6 := by
  unfold escape.escapeUnit
  split
  · exact Nat.le_refl 6
  · exact length_escaped_le _

theorem JavaScript.length_escape_le (s : Str) : (escape s).length ≤ 6 * s.length := by
  induction s using escape.induct with
  | case1 => exact Nat.le_refl 0
  | case2 u => exact length_escapeUnit_le u
  | case3 u v us pair ih =>
    rw [escape, if_pos pair]
    simp only [List.length_cons]
    omega
  | case4 u v us single ih =>
    have first := length_escapeUnit_le u
    rw [escape, if_neg single, List.length_append, List.length_cons (a := u)]
    omega

/-- A written string is at most twelve times as long as the string. -/
theorem Dialect.length_quote_le (d : Dialect) (s : d.Str) :
    (d.quote s).length ≤ 12 * d.size s + 2 := by
  cases d with
  | python =>
    have inside : ∀ s : Python.Str, (s.flatMap Python.escape).length ≤ 12 * s.length := by
      intro s
      induction s with
      | nil => exact Nat.le_refl 0
      | cons c s ih =>
        have first := Python.length_escape_le c
        rw [List.flatMap_cons, List.length_append, List.length_cons]
        omega
    show ('"' :: s.flatMap Python.escape ++ ['"']).length ≤ 12 * s.length + 2
    have inside := inside s
    simp only [List.length_append, List.length_cons, List.length_nil]
    omega
  | javaScript =>
    have inside := JavaScript.length_escape_le s
    show ('"' :: JavaScript.escape s ++ ['"']).length ≤ 12 * s.length + 2
    simp only [List.length_append, List.length_cons, List.length_nil]
    omega

theorem length_id_le (id : UInt64) : (Json.Token.number (.ofInt id.toNat)).chars.length ≤ 20 := by
  have small : id.toNat < 10 ^ 20 := by
    have := id.toNat_lt
    omega
  have digits := Json.length_digits_le small (by decide)
  have positive : ¬(id.toNat : Int) < 0 := by omega
  rw [Json.Scan.chars_ofInt, decide_eq_false positive]
  show ([] ++ (Json.digits id.toNat).map Nat.digitChar).length ≤ 20
  rw [List.nil_append, List.length_map]
  exact digits

theorem Dialect.length_gap_le (d : Dialect) : d.gap.length ≤ 1 := by
  cases d <;> decide

/-- The words of an output event. -/
theorem Dialect.length_quote_word (d : Dialect) :
    ∀ k ∈ ["type", "id", "text", "stdout", "stderr"], (d.quote (d.ofString k)).length ≤ 8 := by
  cases d <;> decide

/-- A piece of output makes no line that is too long. -/
theorem length_output_le {d : Dialect} (c : Channel) (id : UInt64) {piece : d.Str}
    (short : d.size piece ≤ chunk) :
    (Text.utf8 (d.line (d.output c id piece))).length ≤ 1024 * 1024 := by
  have short : d.size piece ≤ 16384 := short
  have bytes := Text.length_utf8_le (d.line (d.output c id piece))
  have text := d.length_quote_le piece
  have number := length_id_le id
  have gap := d.length_gap_le
  have words := d.length_quote_word
  have kind : (d.quote (d.ofString c.name)).length ≤ 8 := by
    cases c
    · exact words "stdout" (by simp)
    · exact words "stderr" (by simp)
  have typeKey := words "type" (by simp)
  have idKey := words "id" (by simp)
  have textKey := words "text" (by simp)
  unfold Dialect.line at bytes
  rw [String.toList_ofList] at bytes
  unfold Dialect.line
  have chars : (d.output c id piece).chars.length ≤ 12 * 16384 + 200 := by
    simp only [Dialect.output, Datum.chars, Datum.memberChars, List.length_append, List.length_cons,
      List.length_nil]
    omega
  omega

end SnippetRunner.Driver
