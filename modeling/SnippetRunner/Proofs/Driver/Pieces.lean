import SnippetRunner.Proofs.Driver.Decoding
import SnippetRunner.Proofs.Driver.Shape

/-!
# Output in pieces

Output is cut into short pieces, and no pair is cut apart. In Python all of them are texts, since
surrogates are replaced before they are sent; in JavaScript they are as far as the output is.
-/

namespace SnippetRunner.Driver

open SnippetRunner.Text (codeUnits decodeUtf16? unitChars? isHigh isLow utf16)

/-! ## Texts -/

namespace Dialect

variable {d : Dialect} {s : d.Str} {t : String}

theorem text?_eq_some_iff : d.text? s = some t ↔ d.units s = utf16 t := Text.decodeUtf16?_eq_some_iff

theorem isText_iff : d.IsText s ↔ (d.text? s).isSome = true := by
  rw [Option.isSome_iff_exists]
  exact exists_congr fun _ => text?_eq_some_iff.symm

/-- What becomes of some output before it is cut into pieces, or after. -/
def written : (d : Dialect) → d.Str → d.Str
  | .python => Python.clean
  | .javaScript => id

/-- The texts of the pieces that denote one. -/
def texts (d : Dialect) (s : d.Str) : List String := (d.pieces s).filterMap d.text?

end Dialect

/-! ## Python -/

namespace Python

variable {s : Str}

/-- A string of code points that are characters is a text. -/
theorem units_of_valid (s : Str) (valid : ∀ c ∈ s, c.val.isValidChar) :
    units s = utf16 (String.ofList (s.map fun c => Char.ofNat c.val)) := by
  unfold units utf16
  rw [String.toList_ofList]
  induction s with
  | nil => rfl
  | cons c s ih =>
    rw [List.flatMap_cons, List.map_cons, List.flatMap_cons,
      ih fun c h => valid c (List.mem_cons_of_mem _ h),
      Text.toNat_ofNat_of_valid (valid c (List.mem_cons_self ..))]

/-- Without its surrogates a string is a text. -/
theorem isText_clean (s : Str) : Dialect.IsText .python (clean s) := by
  refine ⟨_, units_of_valid (clean s) fun c inside => ?_⟩
  obtain ⟨b, -, rfl⟩ := List.mem_map.1 inside
  have small : b.val < 0x110000 := b.isLt
  unfold Nat.isValidChar
  split
  · exact .inl (by decide)
  next plain =>
    have plain : ¬(0xD800 ≤ b.val ∧ b.val ≤ 0xDFFF) := by simpa [isSurrogate] using plain
    omega

theorem flatten_pieces (s : Str) : (pieces s).flatten = clean s := by
  unfold pieces
  induction s using slices.induct with
  | case1 =>
    rw [slices, if_pos rfl]
    rfl
  | case2 s some_ ih =>
    rw [slices, if_neg some_, List.map_cons, List.flatten_cons, ih]
    unfold clean
    rw [← List.map_append, List.take_append_drop]

theorem size_le_of_mem_pieces {p : Str} (h : p ∈ pieces s) : p.length ≤ chunk := by
  unfold pieces at h
  obtain ⟨q, inside, rfl⟩ := List.mem_map.1 h
  clear h
  unfold clean
  rw [List.length_map]
  induction s using slices.induct with
  | case1 =>
    rw [slices, if_pos rfl] at inside
    cases inside
  | case2 s some_ ih =>
    rw [slices, if_neg some_] at inside
    rcases List.mem_cons.1 inside with rfl | inside
    · exact List.length_take_le chunk s
    · exact ih inside

theorem isText_of_mem_pieces {p : Str} (h : p ∈ pieces s) : Dialect.IsText .python p := by
  unfold pieces at h
  obtain ⟨q, -, rfl⟩ := List.mem_map.1 h
  exact isText_clean q

end Python

/-! ## JavaScript -/

namespace JavaScript

variable {s : Str}

theorem cut_le_chunk (s : Str) : cut s ≤ chunk := by
  unfold cut
  simp only
  split <;> omega

/-- No pair is cut apart by the end of a piece. -/
theorem uncut (s : Str) (u v : UInt16) (last : (s.take (cut s)).getLast? = some u)
    (first : (s.drop (cut s)).head? = some v) (high : isHigh u = true) : isLow v = false := by
  rw [List.head?_drop] at first
  have more : cut s < s.length := (List.getElem?_eq_some_iff.1 first).1
  have short : ¬chunk ≤ 1 := by decide
  unfold cut at first last more
  simp only at first last more
  split at first
  next shorter =>
    rw [first] at shorter
    exact Text.isLow_of_isHigh shorter.2.2
  next whole =>
    rw [if_neg whole] at last more
    have before : min chunk s.length - 1 < s.length := by omega
    rw [List.getLast?_take, if_neg (by omega), List.getElem?_eq_getElem before,
      Option.some_or] at last
    apply (whole ⟨more, by omega, ?_⟩).elim
    rw [List.getElem?_eq_getElem before, last]
    exact high

/-- The first piece of a text is a text. -/
theorem isSome_take_cut (whole : (unitChars? s).isSome = true) :
    (unitChars? (s.take (cut s))).isSome = true := by
  rw [← List.take_append_drop (cut s) s] at whole
  exact Text.isSome_unitChars?_of_append whole (uncut s)

theorem flatten_pieces (s : Str) : (pieces s).flatten = s := by
  induction s using pieces.induct with
  | case1 =>
    rw [pieces, if_pos rfl]
    rfl
  | case2 s some_ ih => rw [pieces, if_neg some_, List.flatten_cons, ih, List.take_append_drop]

theorem size_le_of_mem_pieces {p : Str} (h : p ∈ pieces s) : p.length ≤ chunk := by
  induction s using pieces.induct with
  | case1 =>
    rw [pieces, if_pos rfl] at h
    cases h
  | case2 s some_ ih =>
    rw [pieces, if_neg some_] at h
    rcases List.mem_cons.1 h with rfl | h
    · exact (List.length_take_le (cut s) s).trans (cut_le_chunk s)
    · exact ih h

/-- The pieces of a text are texts. -/
theorem isSome_of_mem_pieces {p : Str} (whole : (unitChars? s).isSome = true) (h : p ∈ pieces s) :
    (unitChars? p).isSome = true := by
  induction s using pieces.induct with
  | case1 =>
    rw [pieces, if_pos rfl] at h
    cases h
  | case2 s some_ ih =>
    have first := isSome_take_cut whole
    rw [pieces, if_neg some_] at h
    rcases List.mem_cons.1 h with rfl | h
    · exact first
    · apply ih _ h
      obtain ⟨cs, is⟩ := Option.isSome_iff_exists.1 first
      rwa [← List.take_append_drop (cut s) s, Text.unitChars?_append is, Option.isSome_map] at whole

end JavaScript

/-! ## Both -/

namespace Dialect

variable {d : Dialect} {s : d.Str}

theorem size_le_of_mem_pieces {p : d.Str} (h : p ∈ d.pieces s) : d.size p ≤ chunk := by
  cases d with
  | python => exact Python.size_le_of_mem_pieces h
  | javaScript => exact JavaScript.size_le_of_mem_pieces h

/-- The units of the pieces are those of what is written. -/
theorem flatMap_units_pieces (d : Dialect) (s : d.Str) :
    (d.pieces s).flatMap d.units = d.units (d.written s) := by
  cases d with
  | python =>
    have all : ∀ ps : List Python.Str, ps.flatMap Python.units = Python.units ps.flatten := by
      intro ps
      induction ps with
      | nil => rfl
      | cons p ps ih =>
        rw [List.flatMap_cons, ih, List.flatten_cons]
        exact List.flatMap_append.symm
    show (Python.pieces s).flatMap Python.units = Python.units (Python.clean s)
    rw [all, Python.flatten_pieces]
  | javaScript =>
    show (JavaScript.pieces s).flatMap id = s
    rw [List.flatMap_id, JavaScript.flatten_pieces]

/-- Texts in pieces are one text. -/
theorem decodeUtf16?_of_pieces {ps : List d.Str} {ts : List String} (h : ps.map d.text? = ts.map some) :
    decodeUtf16? (ps.flatMap d.units) = some (String.join ts) := by
  rw [Text.decodeUtf16?_eq_some_iff]
  induction ps generalizing ts with
  | nil =>
    cases ts with
    | nil => rfl
    | cons t ts => cases h
  | cons p ps ih =>
    cases ts with
    | nil => cases h
    | cons t ts =>
      obtain ⟨first, later⟩ := List.cons.inj h
      rw [List.flatMap_cons, ih later, text?_eq_some_iff.1 first]
      unfold utf16
      rw [String.join_cons, String.toList_append, List.flatMap_append]

/-- Where every piece denotes a text, none is left out of the texts. -/
theorem map_text?_of_isText {ps : List d.Str} (all : ∀ p ∈ ps, d.IsText p) :
    ps.map d.text? = (ps.filterMap d.text?).map some := by
  induction ps with
  | nil => rfl
  | cons p ps ih =>
    obtain ⟨t, is⟩ := Option.isSome_iff_exists.1 (isText_iff.1 (all p (List.mem_cons_self ..)))
    rw [List.map_cons, List.filterMap_cons_some is, List.map_cons, is,
      ih fun q h => all q (List.mem_cons_of_mem _ h)]

/-- The texts of the pieces are what is written, if none is left out. -/
theorem units_join_texts (all : ∀ p ∈ d.pieces s, d.IsText p) :
    d.units (d.written s) = utf16 (String.join (d.texts s)) := by
  rw [← flatMap_units_pieces]
  exact Text.decodeUtf16?_eq_some_iff.1 (decodeUtf16?_of_pieces (map_text?_of_isText all))

/-- All pieces are texts exactly where what is written is one. -/
theorem isText_pieces_iff (d : Dialect) (s : d.Str) :
    (∀ p ∈ d.pieces s, d.IsText p) ↔ d.IsText (d.written s) := by
  constructor
  · exact fun all => ⟨_, units_join_texts all⟩
  · intro whole p inside
    cases d with
    | python => exact Python.isText_of_mem_pieces inside
    | javaScript =>
      have whole : (unitChars? s).isSome = true := by
        rw [← Option.isSome_map]
        exact isText_iff.1 whole
      rw [isText_iff]
      show ((unitChars? p).map String.ofList).isSome = true
      rw [Option.isSome_map]
      exact JavaScript.isSome_of_mem_pieces whole inside

end Dialect

end SnippetRunner.Driver
