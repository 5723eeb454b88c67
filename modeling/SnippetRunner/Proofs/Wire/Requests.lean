import SnippetRunner.Proofs.Driver.Intake
import SnippetRunner.Proofs.Json.Readers

/-!
# Requests as others read them

The line of a request is the text of one object and a newline. Whatever the code holds, no other control
character stands in it, and every reader of JSON texts finds the number and the code in it and nothing
else. So the line says which request it is.
-/

namespace SnippetRunner.Wire.Request

open SnippetRunner.Driver (Visible)

variable {r : Request}

/-- The members of a request. -/
def members (r : Request) : List (String × Json.Value) :=
  [("id", .int r.id), ("code", .text r.code)]

theorem toJson_eq (r : Request) : r.toJson = .record r.members := by
  have number : Json.Value.int r.id = .nat r.id := congrArg _ (Json.Numeral.ofInt_natCast r.id)
  unfold toJson members
  rw [number]

/-- What is written is a spelling of the object. -/
theorem spelledBy_write (r : Request) : (Json.Value.record r.members).SpelledBy r.toJson.write := by
  rw [← toJson_eq]
  exact Json.spelledBy_write (Driver.Dialect.plain_toJson r)

/-- What is written holds no control character. -/
theorem visible_write (r : Request) : Visible r.toJson.write.toList := by
  have before : Visible ['\x7b', '"', 'i', 'd', '"', ':'] := by decide
  have between : Visible [',', '"', 'c', 'o', 'd', 'e', '"', ':', '"'] := by decide
  have after : Visible ['"', '\x7d'] := by decide
  have number : Visible (Json.Token.number (.ofNat r.id)).chars := by
    rw [← Json.Numeral.ofInt_natCast]
    exact Driver.visible_int r.id
  have code : Visible (r.code.toList.flatMap Json.escaped) := .flatMap Driver.visible_escaped _
  rw [Driver.Dialect.toList_write]
  exact (((before.append number).append between).append code).append after

section Readers

variable {ρ : Type} {x : Json.Reader ρ} {exact : Int → Prop}

/-- Whoever reads objects reads a request with its newline and without. -/
theorem reads (standard : x.Standard exact) (r : Request) :
    ∀ text ∈ [r.line, r.toJson.write], ∃ d, x.read text = some d ∧ x.Shows exact d r.members := by
  intro text which
  have distinct : (r.members.map Prod.fst).Nodup := by simp [members]
  have spelled := spelledBy_write r
  rcases List.mem_pair.1 which with rfl | rfl
  · exact standard _ _ distinct (Json.spelledBy_newline spelled)
  · exact standard _ _ distinct spelled

end Readers

/-- The reader of this library finds the number and the code of a request in its line. -/
theorem eq_of_line_eq {r' : Request} (same : r.line = r'.line) : r = r' := by
  obtain ⟨d, read, -, texts, integers⟩ := reads Json.standard_reader r _ (List.mem_cons_self ..)
  obtain ⟨d', read', -, otherTexts, otherIntegers⟩ := reads Json.standard_reader r' _ (List.mem_cons_self ..)
  obtain rfl : d = d' := by
    rw [same, read'] at read
    exact (Option.some.inj read).symm
  have code : some r.code = some r'.code := by
    rw [← @texts "code" r.code (by simp [members]), ← @otherTexts "code" r'.code (by simp [members])]
  have id : some (r.id : Int) = some (r'.id : Int) := by
    rw [← @integers "id" r.id (by simp [members]) trivial,
      ← @otherIntegers "id" r'.id (by simp [members]) trivial]
  cases r
  cases r'
  simp_all

/-- The line of a request is a spelling of an object with a newline after it, and holds no other byte
below the space. Whatever reads objects reads the line, with its newline and without, as an object with
two members: the code as it is, and the number, if it is one that the reader keeps; for a reader that
keeps all integers, where `exact` is `fun _ => True`, this is the number of every request. No two
requests have the same line. -/
theorem line_reads (r : Request) :
    (∃ text, r.line = text ++ "\n" ∧ (Json.Value.record r.members).SpelledBy text ∧
      ∀ b ∈ Text.utf8 text, 0x20 ≤ b.toNat) ∧
    (∀ {ρ : Type} (x : Json.Reader ρ) (exact : Int → Prop), x.Standard exact →
      ∀ text ∈ [r.line, r.toJson.write], ∃ d names, x.read text = some d ∧ x.names d = some names ∧
        names.Perm ["id", "code"] ∧ (x.member d "code").bind x.text = some r.code ∧
          (exact r.id → (x.member d "id").bind x.integer = some (r.id : Int))) ∧
    ∀ r' : Request, r.line = r'.line → r = r' := by
  refine ⟨⟨r.toJson.write, rfl, spelledBy_write r, ?_⟩, ?_, fun r' => eq_of_line_eq⟩
  · intro b inside
    obtain ⟨c, written, byte⟩ := List.mem_flatMap.1 inside
    exact Text.le_of_mem_utf8EncodeChar (visible_write r c written) byte
  · intro ρ x exact standard text which
    obtain ⟨d, read, ⟨names, named, order⟩, texts, integers⟩ := reads standard r text which
    refine ⟨d, names, read, named, order, texts (by simp [members]), integers (by simp [members])⟩

end SnippetRunner.Wire.Request
