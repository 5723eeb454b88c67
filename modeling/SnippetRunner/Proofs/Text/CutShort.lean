import SnippetRunner.Proofs.Text.Spelled

/-!
# Characters that are cut short

Bytes may end inside a character. What has arrived of it then is a proper prefix of the bytes of some
character, and every such prefix can stand there: the decoder holds a character unfinished for exactly
these bytes. So it is said without the decoder what is read of bytes to which more may be added: a text
up to a character that is cut short at its end, and all of them if they are nothing of this kind.
-/

namespace SnippetRunner.Text

variable {d : Decoding} {u : Unfinished} {b : UInt8} {bs read kept : List UInt8}

/-- The bytes are a proper prefix of those of a character, be they none. -/
def IsCutShort (bs : List UInt8) : Prop :=
  ∃ (c : Char) (rest : List UInt8), rest ≠ [] ∧ bs ++ rest = String.utf8EncodeChar c

theorem isCutShort_nil : IsCutShort [] := ⟨'a', [0x61], by decide, by decide⟩

/-- A character has four bytes at most. -/
theorem IsCutShort.length_le (cut : IsCutShort bs) : bs.length ≤ 3 := by
  obtain ⟨c, rest, missing, whole⟩ := cut
  have more : 0 < rest.length := List.length_pos_iff.2 missing
  have size : bs.length + rest.length ≤ 4 := by
    rw [← List.length_append, whole, String.length_utf8EncodeChar]
    exact Char.utf8Size_le_four c
  omega

/-! ## What is unfinished is cut short -/

/-- Some byte can come next of what a byte opens. -/
theorem exists_takes_of_lead (h : lead b = .opens u) : ∃ next, u.Takes next := by
  refine ⟨u.low, UInt8.le_refl _, ?_⟩
  unfold lead at h
  grind

/-- While some byte can come next, the bytes of an unfinished character are those of one that is cut
short. Once it has been continued, any byte that continues can come next. -/
theorem Unfinished.Spells.isCutShort (spells : u.Spells) (goesOn : ∃ next, u.Takes next) :
    IsCutShort u.bytes := by
  induction spells with
  | last last whole =>
    obtain ⟨next, takes⟩ := goesOn
    exact ⟨_, [next], List.cons_ne_nil _ _, (whole next takes).symm⟩
  | more more next ih =>
    obtain ⟨b, takes⟩ := goesOn
    have least : (0x80 : UInt8) ≤ 0xBF := by decide
    obtain ⟨c, rest, -, whole⟩ := ih b takes ⟨0x80, UInt8.le_refl _, least⟩
    refine ⟨c, b :: rest, List.cons_ne_nil _ _, ?_⟩
    rw [← whole, List.append_assoc]
    rfl

namespace Decoding

/-- Some byte can come next of what is unfinished after a byte. -/
theorem exists_takes_of_push (h : (d.push b).unfinished = some u) : ∃ next, u.Takes next := by
  rcases opens_or_continues_of_push h with opened | ⟨-, -, -, -, low, high⟩
  · exact exists_takes_of_lead opened
  · refine ⟨u.low, UInt8.le_refl _, ?_⟩
    rw [low, high]
    decide

/-- What stands unfinished at the end of some bytes. -/
theorem isCutShort_of_ofBytes (h : (ofBytes bs).unfinished = some u) : IsCutShort u.bytes := by
  refine ((spells_ofBytes bs).unfinished u h).isCutShort ?_
  rcases List.eq_nil_or_concat bs with rfl | ⟨front, b, rfl⟩
  · cases h
  · rw [List.concat_eq_append, ofBytes_concat] at h
    exact exists_takes_of_push h

/-! ## What is cut short is unfinished -/

/-- Where no part has been read yet, the bytes are those of the unfinished character, if there is one. -/
theorem bytes_of_parts_eq_nil (none : (ofBytes bs).parts = []) :
    ((ofBytes bs).unfinished.map (·.bytes)).getD [] = bs := by
  have bytes := (spells_ofBytes bs).bytes (by unfold wellFormed; rw [none]; rfl)
  rw [none] at bytes
  exact bytes.symm

/-- Of a character that is cut short no part is read yet, and its bytes are those of the unfinished
one. -/
theorem ofBytes_of_isCutShort (cut : IsCutShort bs) :
    (ofBytes bs).parts = [] ∧ ((ofBytes bs).unfinished.map (·.bytes)).getD [] = bs := by
  obtain ⟨c, rest, missing, whole⟩ := cut
  have parts : (rest.foldl push ⟨[], (ofBytes bs).unfinished⟩).parts ++ (ofBytes bs).parts = [some c] := by
    have all : ofBytes (bs ++ rest) = ⟨[some c], none⟩ := by
      rw [whole]
      exact foldl_push_utf8EncodeChar [] c
    rw [ofBytes_append] at all
    exact congrArg Decoding.parts all
  rcases List.append_eq_singleton_iff.1 parts with ⟨-, early⟩ | ⟨-, none⟩
  · -- if the character had been read already, all its bytes would be there
    have bytes := (spells_ofBytes bs).bytes (by unfold wellFormed; rw [early]; rfl)
    rw [early, flatMap_shown_cons] at bytes
    have size : (String.utf8EncodeChar c).length ≤ bs.length := by
      rw [bytes, List.length_append]
      exact Nat.le_add_right _ _
    have total : bs.length + rest.length = (String.utf8EncodeChar c).length := by
      rw [← List.length_append, whole]
    have more : 0 < rest.length := List.length_pos_iff.2 missing
    omega
  · exact ⟨none, bytes_of_parts_eq_nil none⟩

end Decoding

/-! ## What is read -/

/-- A text, with what is there of the character behind it, is read up to that. -/
theorem takeText_utf8_append (s : String) (cut : IsCutShort kept) :
    takeText (utf8 s ++ kept) = (s, kept) := by
  obtain ⟨well, finished, text⟩ := decode?_eq_some_iff.1 (decode?_utf8 s)
  obtain ⟨none, bytes⟩ := Decoding.ofBytes_of_isCutShort cut
  have all : Decoding.ofBytes (utf8 s ++ kept) =
      ⟨(Decoding.ofBytes (utf8 s)).parts, (Decoding.ofBytes kept).unfinished⟩ := by
    rw [Decoding.ofBytes_append, finished]
    show Decoding.behind _ (Decoding.ofBytes kept) = _
    unfold Decoding.behind
    rw [none, List.nil_append]
  rw [takeText_of_wellFormed (by rw [all]; exact well), all, Prod.mk.injEq]
  exact ⟨text, bytes⟩

/-- Bytes without a malformed part are a text, with what is there of the character behind it. -/
theorem eq_utf8_append_of_wellFormed (h : (Decoding.ofBytes bs).wellFormed = true) :
    ∃ s kept, IsCutShort kept ∧ bs = utf8 s ++ kept := by
  refine ⟨(Decoding.ofBytes bs).text, ((Decoding.ofBytes bs).unfinished.map (·.bytes)).getD [], ?_, ?_⟩
  · cases unfinished : (Decoding.ofBytes bs).unfinished with
    | none => exact isCutShort_nil
    | some u => exact Decoding.isCutShort_of_ofBytes unfinished
  · unfold utf8
    rw [Decoding.text_eq, String.toList_ofList]
    exact (Decoding.spells_ofBytes bs).bytes h

/-- The text is empty only where there are no bytes. -/
theorem decodeLossy_eq_empty_iff : decodeLossy bs = "" ↔ bs = [] := by
  constructor
  · intro empty
    have empty : (Decoding.ofBytes bs).finish = "" := empty
    cases unfinished : (Decoding.ofBytes bs).unfinished with
    | some u =>
      rw [Decoding.finish_of_some unfinished, String.append_eq_empty_iff] at empty
      exact absurd empty.2 (by decide)
    | none =>
      rw [Decoding.finish_of_none unfinished, Decoding.text_eq, String.ofList_eq_empty_iff] at empty
      have parts : (Decoding.ofBytes bs).parts = [] := by simpa [shown] using empty
      have bytes := Decoding.bytes_of_parts_eq_nil parts
      rw [unfinished] at bytes
      exact bytes.symm
  · rintro rfl
    rfl

/-- What is read at once of bytes to which more may be added, and what is kept for later. -/
inductive Parted (bs : List UInt8) : List UInt8 → List UInt8 → Prop where
  /-- A text is read up to a character that is cut short at its end. -/
  | text {s : String} {kept : List UInt8} (cut : IsCutShort kept) (all : bs = utf8 s ++ kept) :
      Parted bs (utf8 s) kept
  /-- Other bytes are all read. -/
  | malformed (other : ∀ s kept, IsCutShort kept → bs ≠ utf8 s ++ kept) : Parted bs bs []

theorem Parted.isCutShort (h : Parted bs read kept) : IsCutShort kept := by
  cases h with
  | text cut => exact cut
  | malformed => exact isCutShort_nil

/-- No byte is lost. -/
theorem Parted.append (h : Parted bs read kept) : read ++ kept = bs := by
  cases h with
  | text cut all => exact all.symm
  | malformed => exact List.append_nil bs

/-- What is taken is the lenient reading of what is read. -/
theorem takeText_of_parted (h : Parted bs read kept) : takeText bs = (decodeLossy read, kept) := by
  cases h with
  | text cut all =>
    rw [all, takeText_utf8_append _ cut, decodeLossy_utf8]
  | malformed other =>
    have malformed : (Decoding.ofBytes bs).wellFormed = false := by
      refine Bool.eq_false_iff.2 fun well => ?_
      obtain ⟨s, kept, cut, all⟩ := eq_utf8_append_of_wellFormed well
      exact other s kept cut all
    rw [takeText_of_malformed malformed]
    rfl

theorem exists_parted (bs : List UInt8) : ∃ read kept, Parted bs read kept := by
  by_cases text : ∃ s kept, IsCutShort kept ∧ bs = utf8 s ++ kept
  · obtain ⟨s, kept, cut, all⟩ := text
    exact ⟨_, _, .text cut all⟩
  · exact ⟨_, _, .malformed fun s kept cut all => text ⟨s, kept, cut, all⟩⟩

end SnippetRunner.Text
