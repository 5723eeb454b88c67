import SnippetRunner.Text.Utf16

/-!
# Texts in UTF-16

The units of a text decode to it, and no others do: units are a text exactly where every surrogate
has its partner.
-/

namespace SnippetRunner.Text

variable {u v : UInt16} {us : List UInt16} {c : Char}

/-! ## Units of one character -/

theorem toNat_ofNat_of_valid {n : Nat} (h : n.isValidChar) : (Char.ofNat n).toNat = n := by
  unfold Char.ofNat
  rw [dif_pos h]
  rfl

/-- The number of a unit that is no surrogate is a character. -/
theorem isValidChar_of_plain (h : (isHigh u || isLow u) = false) : u.toNat.isValidChar := by
  have small : u.toNat < 0x10000 := u.toNat_lt
  simp only [isHigh, isLow, Bool.or_eq_false_iff, Bool.and_eq_false_iff, decide_eq_false_iff_not] at h
  unfold Nat.isValidChar
  omega

/-- A unit that is no surrogate stands for the character of its number. -/
theorem codeUnits_of_plain (h : (isHigh u || isLow u) = false) :
    codeUnits (Char.ofNat u.toNat).toNat = [u] := by
  have small : u.toNat < 0x10000 := u.toNat_lt
  rw [toNat_ofNat_of_valid (isValidChar_of_plain h)]
  unfold codeUnits
  rw [if_pos small, UInt16.ofNat_toNat]

/-- A pair stands for a character above U+FFFF. -/
theorem codeUnits_ofPair (high : isHigh u = true) (low : isLow v = true) :
    codeUnits (ofPair u v).toNat = [u, v] := by
  simp only [isHigh, isLow, Bool.and_eq_true, decide_eq_true_eq] at high low
  obtain ⟨code, is⟩ : ∃ n, n = 0x10000 + (u.toNat - 0xD800) * 0x400 + (v.toNat - 0xDC00) := ⟨_, rfl⟩
  have valid : code.isValidChar := by
    unfold Nat.isValidChar
    omega
  have first : 0xD800 + (code - 0x10000) / 0x400 = u.toNat := by omega
  have second : 0xDC00 + (code - 0x10000) % 0x400 = v.toNat := by omega
  unfold ofPair
  rw [← is, toNat_ofNat_of_valid valid]
  unfold codeUnits
  rw [if_neg (by omega), first, second, UInt16.ofNat_toNat, UInt16.ofNat_toNat]

theorem le_toNat_ofPair (high : isHigh u = true) (low : isLow v = true) :
    0x10000 ≤ (ofPair u v).toNat := by
  have units := codeUnits_ofPair high low
  rcases Nat.lt_or_ge (ofPair u v).toNat 0x10000 with small | large
  · rw [codeUnits, if_pos small] at units
    exact absurd (congrArg List.length units) (by simp)
  · exact large

/-- A character is one unit that is no surrogate, or a pair. -/
theorem codeUnits_toNat (c : Char) :
    (∃ u, codeUnits c.toNat = [u] ∧ (isHigh u || isLow u) = false ∧ Char.ofNat u.toNat = c) ∨
      ∃ u v, codeUnits c.toNat = [u, v] ∧ isHigh u = true ∧ isLow v = true ∧ ofPair u v = c := by
  have valid : c.toNat < 0xD800 ∨ 0xDFFF < c.toNat ∧ c.toNat < 0x110000 := c.valid
  unfold codeUnits
  by_cases small : c.toNat < 0x10000
  · rw [if_pos small]
    have same : (UInt16.ofNat c.toNat).toNat = c.toNat := UInt16.toNat_ofNat_of_lt small
    refine .inl ⟨_, rfl, ?_, ?_⟩
    · simp only [isHigh, isLow, same, Bool.or_eq_false_iff, Bool.and_eq_false_iff,
        decide_eq_false_iff_not]
      omega
    · rw [same, Char.ofNat_toNat]
  · rw [if_neg small]
    have first : (UInt16.ofNat (0xD800 + (c.toNat - 0x10000) / 0x400)).toNat =
        0xD800 + (c.toNat - 0x10000) / 0x400 := UInt16.toNat_ofNat_of_lt (by unfold UInt16.size; omega)
    have second : (UInt16.ofNat (0xDC00 + (c.toNat - 0x10000) % 0x400)).toNat =
        0xDC00 + (c.toNat - 0x10000) % 0x400 := UInt16.toNat_ofNat_of_lt (by unfold UInt16.size; omega)
    refine .inr ⟨_, _, rfl, ?_, ?_, ?_⟩
    · simp only [isHigh, first, Bool.and_eq_true, decide_eq_true_eq]
      omega
    · simp only [isLow, second, Bool.and_eq_true, decide_eq_true_eq]
      omega
    · have code : 0x10000 + (0xD800 + (c.toNat - 0x10000) / 0x400 - 0xD800) * 0x400 +
          (0xDC00 + (c.toNat - 0x10000) % 0x400 - 0xDC00) = c.toNat := by omega
      unfold ofPair
      rw [first, second, code, Char.ofNat_toNat]

/-- No unit opens a pair and closes one. -/
theorem isLow_of_isHigh (high : isHigh u = true) : isLow u = false := by
  simp only [isHigh, isLow, Bool.and_eq_true, Bool.and_eq_false_iff, decide_eq_true_eq,
    decide_eq_false_iff_not] at *
  omega

/-! ## Decoding -/

theorem unitChars?_cons_of_plain (h : (isHigh u || isLow u) = false) (us : List UInt16) :
    unitChars? (u :: us) = (unitChars? us).map (Char.ofNat u.toNat :: ·) := by
  cases us with
  | nil => simp [unitChars?, h]
  | cons v us =>
    rw [Bool.or_eq_false_iff] at h
    simp [unitChars?, h.1, h.2]

theorem unitChars?_cons_of_pair (high : isHigh u = true) (low : isLow v = true) (us : List UInt16) :
    unitChars? (u :: v :: us) = (unitChars? us).map (ofPair u v :: ·) := by
  simp [unitChars?, high, low]

/-- The units of characters decode to them. -/
theorem unitChars?_flatMap (cs : List Char) :
    unitChars? (cs.flatMap fun c => codeUnits c.toNat) = some cs := by
  induction cs with
  | nil => rfl
  | cons c cs ih =>
    rw [List.flatMap_cons]
    rcases codeUnits_toNat c with ⟨u, units, plain, rfl⟩ | ⟨u, v, units, high, low, rfl⟩
    · rw [units, List.singleton_append, unitChars?_cons_of_plain plain, ih]
      rfl
    · rw [units, List.cons_append, List.singleton_append, unitChars?_cons_of_pair high low, ih]
      rfl

/-- Units that decode are those of the characters. -/
theorem flatMap_of_unitChars? {cs : List Char} (h : unitChars? us = some cs) :
    us = cs.flatMap fun c => codeUnits c.toNat := by
  induction us using unitChars?.induct generalizing cs with
  | case1 =>
    cases h
    rfl
  | case2 u surrogate =>
    simp [unitChars?, surrogate] at h
  | case3 u plain =>
    have plain : (isHigh u || isLow u) = false := by simpa using plain
    rw [unitChars?_cons_of_plain plain] at h
    cases h
    rw [List.flatMap_cons, codeUnits_of_plain plain]
    rfl
  | case4 u v us high low ih =>
    rw [unitChars?_cons_of_pair high low] at h
    obtain ⟨ds, rest, rfl⟩ := Option.map_eq_some_iff.1 h
    rw [List.flatMap_cons, codeUnits_ofPair high low, ← ih rest]
    rfl
  | case5 u v us high low => simp [unitChars?, high, low] at h
  | case6 u v us high low => simp [unitChars?, high, low] at h
  | case7 u v us high low ih =>
    have plain : (isHigh u || isLow u) = false := by simp [high, low]
    rw [unitChars?_cons_of_plain plain] at h
    obtain ⟨ds, rest, rfl⟩ := Option.map_eq_some_iff.1 h
    rw [List.flatMap_cons, codeUnits_of_plain plain, ← ih rest]
    rfl

/-- Units decode to a text exactly where they are its units. -/
theorem decodeUtf16?_eq_some_iff {s : String} : decodeUtf16? us = some s ↔ us = utf16 s := by
  unfold decodeUtf16? utf16
  constructor
  · intro h
    obtain ⟨cs, chars, rfl⟩ := Option.map_eq_some_iff.1 h
    rw [String.toList_ofList]
    exact flatMap_of_unitChars? chars
  · rintro rfl
    rw [unitChars?_flatMap]
    exact congrArg some String.ofList_toList

/-! ## Texts in pieces -/

/-- After the units of characters the others decode as before. -/
theorem unitChars?_append {vs : List UInt16} {cs : List Char} (h : unitChars? us = some cs) :
    unitChars? (us ++ vs) = (unitChars? vs).map (cs ++ ·) := by
  rw [flatMap_of_unitChars? h]
  clear h
  induction cs with
  | nil => simp
  | cons c cs ih =>
    rw [List.flatMap_cons, List.append_assoc]
    rcases codeUnits_toNat c with ⟨u, units, plain, rfl⟩ | ⟨u, v, units, high, low, rfl⟩
    · rw [units, List.singleton_append, unitChars?_cons_of_plain plain, ih, Option.map_map]
      rfl
    · rw [units, List.cons_append, List.singleton_append, unitChars?_cons_of_pair high low, ih,
        Option.map_map]
      rfl

/-- Units that are a text with what comes after them are a text, if no pair is cut apart. -/
theorem isSome_unitChars?_of_append {vs : List UInt16} (whole : (unitChars? (us ++ vs)).isSome = true)
    (uncut : ∀ u v, us.getLast? = some u → vs.head? = some v → isHigh u = true → isLow v = false) :
    (unitChars? us).isSome = true := by
  obtain ⟨cs, is⟩ := Option.isSome_iff_exists.1 whole
  have units := flatMap_of_unitChars? is
  clear whole is
  -- by the characters of the whole: each of them lies in front of the cut, or the pieces meet before it
  induction cs generalizing us with
  | nil =>
    rw [(List.append_eq_nil_iff.1 units).1]
    rfl
  | cons c cs ih =>
    cases us with
    | nil => rfl
    | cons w us =>
      rw [List.flatMap_cons, List.cons_append] at units
      rcases codeUnits_toNat c with ⟨u, one, plain, -⟩ | ⟨u, v, two, high, low, -⟩
      · rw [one, List.singleton_append] at units
        obtain ⟨rfl, rest⟩ := List.cons.inj units
        have uncut' : ∀ x y, us.getLast? = some x → vs.head? = some y → isHigh x = true →
            isLow y = false := by
          intro x y last
          apply uncut x y
          rw [List.getLast?_cons, last]
          rfl
        rw [unitChars?_cons_of_plain plain, Option.isSome_map, ih uncut' rest]
      · rw [two, List.cons_append, List.singleton_append] at units
        obtain ⟨rfl, rest⟩ := List.cons.inj units
        cases us with
        | nil =>
          -- the cut would go through the pair of this character
          have first : vs.head? = some v := by
            rw [show vs = v :: _ from rest]
            rfl
          rw [uncut w v rfl first high] at low
          cases low
        | cons x us =>
          obtain ⟨rfl, others⟩ := List.cons.inj rest
          have uncut' : ∀ y z, us.getLast? = some y → vs.head? = some z → isHigh y = true →
              isLow z = false := by
            intro y z last
            apply uncut y z
            rw [List.getLast?_cons, List.getLast?_cons, last]
            rfl
          rw [unitChars?_cons_of_pair high low, Option.isSome_map, ih uncut' others]

end SnippetRunner.Text
