import SnippetRunner.Proofs.Text.Utf8

/-!
# Encoding and decoding

The bytes of a text decode to it. A character takes one byte up to U+007F, two up to U+07FF, three up
to U+FFFF and four beyond; where the leading byte leaves room for overlong forms or surrogates, the
narrower range of the byte after it keeps them out.
-/

namespace SnippetRunner.Text

open Decoding (push fresh)

variable {parts : List (Option Char)} {u : Unfinished} {n : Nat}

theorem toNat_byte (h : n < 256) : (UInt8.ofNat n).toNat = n := UInt8.toNat_ofNat_of_lt h

/-! ## Leading bytes -/

theorem lead_one (h : n < 0x80) : lead (.ofNat n) = .whole (Char.ofNat n) := by
  unfold lead
  rw [toNat_byte (by omega)]
  exact if_pos h

theorem lead_two (low : 2 ≤ n) (high : n < 0x20) :
    lead (.ofNat (n + 0xC0)) = .opens ⟨[.ofNat (n + 0xC0)], n, 0x80, 0xBF, 0⟩ := by
  unfold lead
  rw [toNat_byte (by omega)]
  simp only
  rw [if_neg (by omega), if_neg (by omega), if_pos (by omega), Nat.add_sub_cancel]

/-- The least and the greatest second byte of a character of three bytes, by the bits of the first. -/
def secondOfThree (n : Nat) : Nat × Nat :=
  (if n = 0 then 0xA0 else 0x80, if n = 0xD then 0x9F else 0xBF)

/-- The least and the greatest second byte of a character of four bytes, by the bits of the first. -/
def secondOfFour (n : Nat) : Nat × Nat :=
  (if n = 0 then 0x90 else 0x80, if n = 4 then 0x8F else 0xBF)

theorem lead_three : ∀ n < 0x10, lead (.ofNat (n + 0xE0)) =
    .opens ⟨[.ofNat (n + 0xE0)], n, .ofNat (secondOfThree n).1, .ofNat (secondOfThree n).2, 1⟩ := by
  decide

theorem lead_four : ∀ n < 5, lead (.ofNat (n + 0xF0)) =
    .opens ⟨[.ofNat (n + 0xF0)], n, .ofNat (secondOfFour n).1, .ofNat (secondOfFour n).2, 2⟩ := by
  decide

/-! ## Bytes that continue -/

/-- The byte that continues a character by six bits. -/
def tailByte (n : Nat) : UInt8 := .ofNat (n % 0x40 + 0x80)

theorem toNat_tailByte (n : Nat) : (tailByte n).toNat = n % 0x40 + 0x80 := toNat_byte (by omega)

/-- A byte within the range of the next one continues the character. -/
theorem takes_tailByte {bytes : List UInt8} {code low high after : Nat} (bound : high < 256)
    (least : low ≤ n % 0x40 + 0x80) (most : n % 0x40 + 0x80 ≤ high) :
    Unfinished.Takes ⟨bytes, code, .ofNat low, .ofNat high, after⟩ (tailByte n) := by
  unfold Unfinished.Takes
  rw [UInt8.le_iff_toNat_le, UInt8.le_iff_toNat_le, toNat_tailByte, toNat_byte (by omega),
    toNat_byte bound]
  exact ⟨least, most⟩

/-- Any six bits are within the full range. -/
theorem takes_full {bytes : List UInt8} {code after : Nat} :
    Unfinished.Takes ⟨bytes, code, 0x80, 0xBF, after⟩ (tailByte n) := by
  have bound : 0xBF < 256 := by omega
  have least : 0x80 ≤ n % 0x40 + 0x80 := by omega
  have most : n % 0x40 + 0x80 ≤ 0xBF := by omega
  exact takes_tailByte bound least most

/-- The last byte finishes the character. -/
theorem push_last (last : u.after = 0) (takes : u.Takes (tailByte n)) :
    push ⟨parts, some u⟩ (tailByte n) =
      ⟨some (Char.ofNat (u.code * 64 + n % 0x40)) :: parts, none⟩ := by
  unfold push
  simp only
  rw [if_pos (show u.low ≤ tailByte n ∧ tailByte n ≤ u.high from takes), toNat_tailByte,
    Nat.add_sub_cancel, last]

/-- A byte before the last one leaves the character unfinished. -/
theorem push_more {k : Nat} (more : u.after = k + 1) (takes : u.Takes (tailByte n)) :
    push ⟨parts, some u⟩ (tailByte n) =
      ⟨parts, some ⟨u.bytes ++ [tailByte n], u.code * 64 + n % 0x40, 0x80, 0xBF, k⟩⟩ := by
  unfold push
  simp only
  rw [if_pos (show u.low ≤ tailByte n ∧ tailByte n ≤ u.high from takes), toNat_tailByte,
    Nat.add_sub_cancel, more]

/-- A byte that opens a character leaves it unfinished. -/
theorem push_lead (parts : List (Option Char)) {b : UInt8} (h : lead b = .opens u) :
    push ⟨parts, none⟩ b = ⟨parts, some u⟩ := by
  show fresh parts b = _
  unfold fresh
  rw [h]

/-! ## Characters -/

/-- The second of three bytes is in its range: the character is neither overlong nor a surrogate. -/
theorem second_of_three (low : 0x800 ≤ n) (high : n < 0x10000) (valid : n < 0xD800 ∨ 0xDFFF < n) :
    (secondOfThree (n / 4096 % 0x10)).1 ≤ n / 64 % 0x40 + 0x80 ∧
      n / 64 % 0x40 + 0x80 ≤ (secondOfThree (n / 4096 % 0x10)).2 ∧
        (secondOfThree (n / 4096 % 0x10)).2 < 256 := by
  unfold secondOfThree
  refine ⟨?_, ?_, ?_⟩ <;> simp only <;> split <;> omega

/-- The second of four bytes is in its range: the character is neither overlong nor too large. -/
theorem second_of_four (low : 0x10000 ≤ n) (high : n < 0x110000) :
    (secondOfFour (n / 262144 % 0x08)).1 ≤ n / 4096 % 0x40 + 0x80 ∧
      n / 4096 % 0x40 + 0x80 ≤ (secondOfFour (n / 262144 % 0x08)).2 ∧
        (secondOfFour (n / 262144 % 0x08)).2 < 256 := by
  unfold secondOfFour
  refine ⟨?_, ?_, ?_⟩ <;> simp only <;> split <;> omega

/-- A number up to U+07FF is read back from its two bytes. -/
theorem foldl_push_two (parts : List (Option Char)) (least : 0x80 ≤ n) (most : n < 0x800) :
    [.ofNat (n / 64 % 0x20 + 0xC0), tailByte n].foldl push ⟨parts, none⟩ =
      ⟨some (Char.ofNat n) :: parts, none⟩ := by
  have opens := lead_two (n := n / 64 % 0x20) (by omega) (by omega)
  have code : n / 64 % 0x20 * 64 + n % 0x40 = n := by omega
  rw [List.foldl_cons, push_lead parts opens, List.foldl_cons, List.foldl_nil,
    push_last rfl takes_full]
  simp only [code]

/-- A number up to U+FFFF that is no surrogate is read back from its three bytes. -/
theorem foldl_push_three (parts : List (Option Char)) (least : 0x800 ≤ n) (most : n < 0x10000)
    (valid : n < 0xD800 ∨ 0xDFFF < n) :
    [.ofNat (n / 4096 % 0x10 + 0xE0), tailByte (n / 64), tailByte n].foldl push ⟨parts, none⟩ =
      ⟨some (Char.ofNat n) :: parts, none⟩ := by
  have opens := lead_three (n / 4096 % 0x10) (by omega)
  obtain ⟨low, high, bound⟩ := second_of_three least most valid
  have code : (n / 4096 % 0x10 * 64 + n / 64 % 0x40) * 64 + n % 0x40 = n := by omega
  rw [List.foldl_cons, push_lead parts opens, List.foldl_cons, List.foldl_cons, List.foldl_nil,
    push_more rfl (takes_tailByte bound low high), push_last rfl takes_full]
  simp only [code]

/-- A greater number is read back from its four bytes. -/
theorem foldl_push_four (parts : List (Option Char)) (least : 0x10000 ≤ n) (most : n < 0x110000) :
    [.ofNat (n / 262144 % 0x08 + 0xF0), tailByte (n / 4096), tailByte (n / 64),
      tailByte n].foldl push ⟨parts, none⟩ = ⟨some (Char.ofNat n) :: parts, none⟩ := by
  have opens := lead_four (n / 262144 % 0x08) (by omega)
  obtain ⟨low, high, bound⟩ := second_of_four least most
  have code : ((n / 262144 % 0x08 * 64 + n / 4096 % 0x40) * 64 + n / 64 % 0x40) * 64 +
      n % 0x40 = n := by omega
  rw [List.foldl_cons, push_lead parts opens, List.foldl_cons, List.foldl_cons, List.foldl_cons,
    List.foldl_nil, push_more rfl (takes_tailByte bound low high), push_more rfl takes_full,
    push_last rfl takes_full]
  simp only [code]

/-- The bytes of a character are read as the character. -/
theorem foldl_push_utf8EncodeChar (parts : List (Option Char)) (c : Char) :
    (String.utf8EncodeChar c).foldl push ⟨parts, none⟩ = ⟨some c :: parts, none⟩ := by
  have valid : c.toNat < 0xD800 ∨ 0xDFFF < c.toNat ∧ c.toNat < 0x110000 := c.valid
  have same : c.val.toNat = c.toNat := rfl
  have read : (String.utf8EncodeChar c).foldl push ⟨parts, none⟩ =
      ⟨some (Char.ofNat c.toNat) :: parts, none⟩ := by
    unfold String.utf8EncodeChar
    simp only [same]
    split
    next one =>
      rw [List.foldl_cons, List.foldl_nil]
      show fresh parts _ = _
      unfold fresh
      rw [lead_one (by omega)]
    split
    next two => exact foldl_push_two parts (by omega) (by omega)
    split
    next three => exact foldl_push_three parts (by omega) (by omega) (by omega)
    next four => exact foldl_push_four parts (by omega) (by omega)
  rw [read, Char.ofNat_toNat]

/-- The bytes of a text decode to it. -/
theorem decode?_utf8 (s : String) : decode? (utf8 s) = some s := by
  have parts : ∀ (cs : List Char) (parts : List (Option Char)),
      (cs.flatMap String.utf8EncodeChar).foldl push ⟨parts, none⟩ =
        ⟨(cs.map some).reverse ++ parts, none⟩ := by
    intro cs
    induction cs with
    | nil => exact fun _ => rfl
    | cons c cs ih =>
      intro parts
      rw [List.flatMap_cons, List.foldl_append, foldl_push_utf8EncodeChar, ih, List.map_cons,
        List.reverse_cons, List.append_assoc, List.singleton_append]
  have read : Decoding.ofBytes (utf8 s) = ⟨(s.toList.map some).reverse, none⟩ := by
    show (s.toList.flatMap String.utf8EncodeChar).foldl push ⟨[], none⟩ = _
    rw [parts, List.append_nil]
  rw [decode?_eq_some_iff, read]
  refine ⟨?_, rfl, ?_⟩
  · unfold Decoding.wellFormed
    simp
  · rw [Decoding.text_eq]
    unfold shown
    simp [Function.comp_def]

/-- The lenient reading of the bytes of a text is the text. -/
theorem decodeLossy_utf8 (s : String) : decodeLossy (utf8 s) = s := by
  obtain ⟨-, whole, text⟩ := decode?_eq_some_iff.1 (decode?_utf8 s)
  show (Decoding.ofBytes (utf8 s)).finish = s
  rw [Decoding.finish_of_none whole, text]

/-! ## Bytes of a text -/

/-- The bytes of some texts, one after another, are those of the joined text. -/
theorem flatMap_utf8 {α : Type} (as : List α) (text : α → String) :
    as.flatMap (fun a => utf8 (text a)) = utf8 (String.ofList (as.flatMap fun a => (text a).toList)) := by
  unfold utf8
  rw [String.toList_ofList, List.flatMap_assoc]

/-- A byte of a character is an ASCII character by itself, or belongs to no such character. -/
theorem eq_or_le_of_mem_utf8EncodeChar {c : Char} {b : UInt8} (h : b ∈ String.utf8EncodeChar c) :
    b.toNat = c.toNat ∨ 0x80 ≤ b.toNat := by
  have same : c.val.toNat = c.toNat := rfl
  have high : ∀ n, 0x80 ≤ n → n < 256 → b = UInt8.ofNat n → b.toNat = c.toNat ∨ 0x80 ≤ b.toNat := by
    rintro n large small rfl
    rw [toNat_byte small]
    exact .inr large
  unfold String.utf8EncodeChar at h
  simp only [same] at h
  split at h
  next ascii =>
    rw [List.mem_singleton.1 h, toNat_byte (by omega)]
    exact .inl rfl
  split at h
  · simp only [List.mem_cons, List.not_mem_nil, or_false] at h
    rcases h with h | h <;> exact high _ (by omega) (by omega) h
  split at h
  · simp only [List.mem_cons, List.not_mem_nil, or_false] at h
    rcases h with h | h | h <;> exact high _ (by omega) (by omega) h
  · simp only [List.mem_cons, List.not_mem_nil, or_false] at h
    rcases h with h | h | h | h <;> exact high _ (by omega) (by omega) h

/-- No control character among the characters, no control character among the bytes. -/
theorem le_of_mem_utf8EncodeChar {c : Char} (visible : 0x20 ≤ c.toNat) {b : UInt8}
    (h : b ∈ String.utf8EncodeChar c) : 0x20 ≤ b.toNat := by
  rcases eq_or_le_of_mem_utf8EncodeChar h with same | high
  · omega
  · omega

/-- A character takes at most four bytes. -/
theorem length_utf8_le (s : String) : (utf8 s).length ≤ 4 * s.toList.length := by
  have each : ∀ cs : List Char, (cs.flatMap String.utf8EncodeChar).length ≤ 4 * cs.length := by
    intro cs
    induction cs with
    | nil => exact Nat.le_refl 0
    | cons c cs ih =>
      have size := Char.utf8Size_le_four c
      rw [List.flatMap_cons, List.length_append, String.length_utf8EncodeChar, List.length_cons]
      omega
  exact each s.toList

end SnippetRunner.Text
