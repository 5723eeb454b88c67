import Mathlib.Tactic.IntervalCases
import SnippetRunner.Json.Decoder
import SnippetRunner.Proofs.Json.Scanning

/-!
# Written integers

An integer in its plain form is read back as the numeral it was written from, wherever the character
after it cannot belong to a number. The numeral is worth the integer, and lies in the range of a
double as long as it has no more than 308 digits.
-/

namespace SnippetRunner.Json

/-! ## Digits -/

/-- The decimal digits of a number. -/
def digits (n : Nat) : List Nat := (Numeral.ofNat n).whole

variable {n k : Nat}

theorem value_digitChar (h : n < 10) : (Nat.digitChar n).toNat - '0'.toNat = n := by
  rw [Nat.toNat_digitChar_of_lt_ten h]
  exact Nat.add_sub_cancel_left 48 n

/-- A number below ten is its digit. -/
theorem digits_of_lt (h : n < 10) : digits n = [n] := by
  show (Nat.toDigits 10 n).map (fun c => c.toNat - '0'.toNat) = [n]
  rw [Nat.toDigits_of_lt_base h, List.map_singleton, value_digitChar h]

/-- Any other number is the digits of its tenth and one digit more. -/
theorem digits_of_le (h : 10 ≤ n) : digits n = digits (n / 10) ++ [n % 10] := by
  show (Nat.toDigits 10 n).map (fun c => c.toNat - '0'.toNat) = _
  rw [Nat.toDigits_of_base_le (by decide) h, List.map_append, List.map_singleton,
    value_digitChar (Nat.mod_lt n (by decide))]
  rfl

/-- A power of ten is a one and zeros. -/
theorem digits_pow_ten (k : Nat) : digits (10 ^ k) = 1 :: List.replicate k 0 := by
  induction k with
  | zero => rfl
  | succ k ih =>
    have large : 10 ≤ 10 ^ (k + 1) := Nat.le_self_pow (Nat.succ_ne_zero k) 10
    rw [digits_of_le large, Nat.pow_succ, Nat.mul_div_cancel _ (by decide), Nat.mul_mod_left, ih,
      List.replicate_succ', List.cons_append]

theorem nat_pow_ten (k : Nat) :
    Value.nat (10 ^ k) = .number ⟨false, 1 :: List.replicate k 0, none, none⟩ :=
  congrArg (fun ds => Value.number ⟨false, ds, none, none⟩) (digits_pow_ten k)

/-- What holds of the digits below ten and goes over to one digit more holds of every number. -/
theorem digitsInduction {P : Nat → Prop} (one : ∀ n < 10, P n)
    (more : ∀ n, 10 ≤ n → P (n / 10) → P n) (n : Nat) : P n := by
  induction n using Nat.strongRecOn with
  | ind n ih =>
    by_cases small : n < 10
    · exact one n small
    · exact more n (by omega) (ih (n / 10) (by omega))

/-- The digits are worth the number. -/
theorem ofDigits_digits (n : Nat) : Text.ofDigits 10 (digits n) = n := by
  induction n using digitsInduction with
  | one n small =>
    rw [digits_of_lt small]
    show 0 * 10 + n = n
    omega
  | more n large ih =>
    rw [digits_of_le large]
    unfold Text.ofDigits at ih ⊢
    rw [List.foldl_append, ih]
    show n / 10 * 10 + n % 10 = n
    omega

theorem lt_ten_of_mem_digits (h : k ∈ digits n) : k < 10 := by
  induction n using digitsInduction with
  | one n small =>
    rw [digits_of_lt small] at h
    rw [List.mem_singleton.1 h]
    exact small
  | more n large ih =>
    rw [digits_of_le large] at h
    rcases List.mem_append.1 h with h | h
    · exact ih h
    · rw [List.mem_singleton.1 h]
      exact Nat.mod_lt n (by decide)

theorem length_digits_le (small : n < 10 ^ k) (positive : 0 < k) : (digits n).length ≤ k := by
  show ((Nat.toDigits 10 n).map _).length ≤ k
  rw [List.length_map]
  exact (Nat.length_toDigits_le_iff (by decide) positive).2 small

theorem lt_of_length_digits_le (few : (digits n).length ≤ k) (positive : 0 < k) : n < 10 ^ k := by
  have few : ((Nat.toDigits 10 n).map _).length ≤ k := few
  rw [List.length_map] at few
  exact (Nat.length_toDigits_le_iff (by decide) positive).1 few

/-! ## Reading digits -/

namespace Digits

variable {negative : Bool} {c : Char}

/-- A number of which these digits have been read, after its sign if it has one. -/
def reading (negative : Bool) (n : Nat) : Digits :=
  ⟨if n = 0 then .zero else .whole, ⟨negative, (digits n).reverse, none, none⟩⟩

theorem digit?_digitChar : ∀ n < 10, Text.digit? (Nat.digitChar n) = some n := by decide

/-- The first digit after a sign. -/
theorem push_sign (small : n < 10) :
    push ⟨.sign, ⟨true, [], none, none⟩⟩ (Nat.digitChar n) = .more (reading true n) := by
  unfold push reading
  simp only [digit?_digitChar n small, digits_of_lt small]
  rfl

/-- One digit more. -/
theorem push_digitChar (large : 10 ≤ n) :
    push (reading negative (n / 10)) (Nat.digitChar (n % 10)) = .more (reading negative n) := by
  have tenth : n / 10 ≠ 0 := by omega
  have whole : n ≠ 0 := by omega
  unfold push reading
  simp only [digit?_digitChar (n % 10) (by omega), tenth, whole, if_false, digits_of_le large,
    List.reverse_append]
  rfl

/-- The number ends before a character that stops it. -/
theorem push_of_stops (stops : Stops c) : push (reading negative n) c = .ended := by
  obtain ⟨noDigit, point, small, large⟩ := stops
  unfold push reading
  by_cases zero : n = 0 <;> simp [zero, noDigit, point, small, large]

/-- The number that has been read. -/
theorem close?_reading : close? (reading negative n) = some ⟨negative, digits n, none, none⟩ := by
  unfold close? reading
  by_cases zero : n = 0 <;> simp [zero]

end Digits

/-! ## Reading integers -/

namespace Scan

variable {c : Char}

/-- The digits of a number are read one after another, from wherever its first digit begins it. -/
theorem run_digits {negative : Bool} (before : List Token) (mode : Mode)
    (first : ∀ d < 10, push ⟨before, mode⟩ (Nat.digitChar d) =
      some ⟨before, .number (.reading negative d)⟩) (n : Nat) :
    run ⟨before, mode⟩ (digitChars (digits n)) = some ⟨before, .number (.reading negative n)⟩ := by
  induction n using digitsInduction with
  | one n small =>
    rw [digits_of_lt small]
    show run _ [Nat.digitChar n] = _
    rw [run_cons, first n small]
    rfl
  | more n large ih =>
    have last : push ⟨before, .number (.reading negative (n / 10))⟩ (Nat.digitChar (n % 10)) =
        some ⟨before, .number (.reading negative n)⟩ := by
      unfold push
      simp only [Digits.push_digitChar large]
    rw [digits_of_le large]
    show run _ ((digits (n / 10) ++ [n % 10]).map Nat.digitChar) = _
    rw [List.map_append, run_append]
    show Option.bind (run _ (digitChars (digits (n / 10)))) _ = _
    rw [ih]
    show run _ [Nat.digitChar (n % 10)] = _
    rw [run_cons, last]
    rfl

/-- A number that has been read is a token before a character that stops it. -/
theorem push_of_stops {negative : Bool} {before : List Token} (stops : Stops c) :
    push ⟨before, .number (.reading negative n)⟩ c =
      fresh (.number ⟨negative, digits n, none, none⟩ :: before) c := by
  unfold push
  simp only [Digits.push_of_stops stops, Digits.close?_reading, Option.bind_some]

/-- A digit between tokens begins a number. -/
theorem fresh_digitChar (before : List Token) {d : Nat} (small : d < 10) :
    fresh before (Nat.digitChar d) = some ⟨before, .number (.reading false d)⟩ := by
  interval_cases d <;> rfl

/-- The sign and the digits of a number are read to its end. -/
theorem run_signed (before : List Token) (negative : Bool) (n : Nat) :
    run ⟨before, .between⟩ ((if negative then ['-'] else []) ++ digitChars (digits n)) =
      some ⟨before, .number (.reading negative n)⟩ := by
  cases negative with
  | false => exact run_digits before .between (fun d small => fresh_digitChar before small) n
  | true =>
    apply run_digits before (.number ⟨.sign, ⟨true, [], none, none⟩⟩)
    intro d small
    unfold push
    simp only [Digits.push_sign small]

/-- The written form of an integer is its sign and its digits. -/
theorem chars_ofInt (i : Int) :
    (Token.number (.ofInt i)).chars =
      (if decide (i < 0) then ['-'] else []) ++ digitChars (digits i.natAbs) := by
  show (_ ++ []) ++ [] = _
  rw [List.append_nil, List.append_nil]
  rfl

/-- An integer in its plain form. -/
theorem spellsBefore_int (i : Int) :
    SpellsBefore (Token.number (.ofInt i)).chars [.number (.ofInt i)] := by
  intro before c stops
  rw [chars_ofInt, run_append, run_signed, Option.bind_some, run_cons, push_of_stops stops]
  rfl

end Scan

/-! ## The worth of an integer -/

namespace Numeral

theorem ofInt_natCast (n : Nat) : ofInt n = .ofNat n := by
  simp [ofInt, ofNat]

/-- A numeral is worth the integer that it was written from. -/
theorem int?_ofInt (i : Int) : (ofInt i).int? = some i := by
  have worth : Text.ofDigits 10 (ofInt i).whole = i.natAbs := ofDigits_digits i.natAbs
  show (if decide (i < 0) = true then
    (if Text.ofDigits 10 (ofInt i).whole = 0 then none
      else some (-(Int.ofNat (Text.ofDigits 10 (ofInt i).whole))))
    else some (Int.ofNat (Text.ofDigits 10 (ofInt i).whole))) = some i
  rw [worth]
  by_cases negative : i < 0
  · have nonzero : i.natAbs ≠ 0 := by omega
    have value : -(Int.ofNat i.natAbs) = i := by
      show -((i.natAbs : Nat) : Int) = i
      omega
    rw [decide_eq_true negative, if_pos rfl, if_neg nonzero, value]
  · have value : Int.ofNat i.natAbs = i := by
      show ((i.natAbs : Nat) : Int) = i
      omega
    rw [decide_eq_false negative, if_neg (by decide), value]

/-- Digits are taken into the significand as long as they fit, and count by their place from then on:
what comes of them is no more than the number that they write. -/
theorem foldl_takeWhole_digits (n : Nat) :
    ∃ m p : Nat, ∃ fits, (digits n).foldl Scaled.takeWhole (⟨0, 0⟩, true) = (⟨m, p⟩, fits) ∧
      m * 10 ^ p ≤ n ∧ (fits = true → p = 0) := by
  induction n using digitsInduction with
  | one n small =>
    rw [digits_of_lt small]
    have fits : 0 * 10 + n ≤ Text.maxWord := Nat.le_trans (by omega) (by decide : 9 ≤ Text.maxWord)
    exact ⟨0 * 10 + n, 0, true, if_pos (by simpa using fits), by omega, fun _ => rfl⟩
  | more n large ih =>
    obtain ⟨m, p, fits, tenth, le, whole⟩ := ih
    rw [digits_of_le large, List.foldl_append, tenth, List.foldl_cons, List.foldl_nil]
    unfold Scaled.takeWhole
    split
    next taken =>
      obtain rfl := whole (Bool.and_eq_true_iff.1 taken).1
      exact ⟨m * 10 + n % 10, 0, true, rfl, by omega, fun _ => rfl⟩
    next =>
      refine ⟨m, p + 1, false, rfl, ?_, nofun⟩
      rw [Nat.pow_succ, ← Nat.mul_assoc]
      omega

/-- Rounding to a double makes a number larger by a quarter at most. -/
theorem toDouble_le (n : Nat) : 4 * toDouble n ≤ 5 * n := by
  obtain ⟨unit, is⟩ : ∃ u, u = Nat.pow 2 (n.log2 + 1 - 53) := ⟨_, rfl⟩
  have low : n / unit * unit ≤ n := Nat.div_mul_le_self n unit
  unfold toDouble
  simp only
  rw [← is]
  by_cases few : n.log2 + 1 ≤ 53
  · -- a number with few bits is a double
    have one : unit = 1 := by rw [is, Nat.sub_eq_zero_of_le few, Nat.pow_eq, Nat.pow_zero]
    rw [one, Nat.mod_one, Nat.div_one, if_neg (by omega)]
    omega
  · have small : 4 * unit ≤ n := by
      have below : 2 ^ (n.log2 + 1 - 53 + 2) ≤ 2 ^ n.log2 := Nat.pow_le_pow_right (by decide) (by omega)
      have nonzero : n ≠ 0 := by
        rintro rfl
        exact few (by decide)
      have self := Nat.log2_self_le nonzero
      have four : Nat.pow 2 (n.log2 + 1 - 53) * 4 = 2 ^ (n.log2 + 1 - 53 + 2) :=
        (Nat.pow_add 2 _ 2).symm
      rw [is]
      omega
    split
    · rw [Nat.add_mul]
      omega
    · omega

/-- An integer of at most 308 digits lies in the range of a double. -/
theorem inRange_of_length_le {negative : Bool} (few : (digits n).length ≤ 308) :
    (⟨negative, digits n, none, none⟩ : Numeral).inRange = true := by
  obtain ⟨m, p, fits, whole, le, -⟩ := foldl_takeWhole_digits n
  have scale : (⟨negative, digits n, none, none⟩ : Numeral).scaled = ⟨m, p⟩ := congrArg Prod.fst whole
  have small : n < 10 ^ 308 := lt_of_length_digits_le few (by decide)
  unfold inRange
  rw [scale]
  simp only
  split
  · rfl
  next nonzero =>
    have positive : 0 < m := Nat.pos_of_ne_zero fun zero => nonzero (.inl zero)
    have places (k : Nat) (small : n < 10 ^ k) : p < k := by
      have power : 10 ^ p < 10 ^ k :=
        Nat.lt_of_le_of_lt (Nat.le_mul_of_pos_left _ positive) (Nat.lt_of_le_of_lt le small)
      exact (Nat.pow_lt_pow_iff_right (by decide)).1 power
    have inside : ¬(p : Int) > 308 := by
      have fewer := places 308 small
      clear small
      omega
    rw [if_neg inside]
    apply decide_eq_true
    show toDouble m * toDouble (10 ^ p) < _
    have rounded : 16 * (toDouble m * toDouble (10 ^ p)) ≤ 25 * n :=
      calc 16 * (toDouble m * toDouble (10 ^ p))
        _ = (4 * toDouble m) * (4 * toDouble (10 ^ p)) := Nat.mul_mul_mul_comm 4 4 _ _
        _ ≤ (5 * m) * (5 * 10 ^ p) := Nat.mul_le_mul (toDouble_le m) (toDouble_le _)
        _ = 25 * (m * 10 ^ p) := Nat.mul_mul_mul_comm 5 m 5 _
        _ ≤ 25 * n := Nat.mul_le_mul_left 25 le
    have limit : 25 * 10 ^ 308 ≤ 16 * (Nat.pow 2 1024 - Nat.pow 2 970) := by decide +kernel
    generalize Nat.pow 2 1024 - Nat.pow 2 970 = greatest at limit ⊢
    generalize 10 ^ 308 = bound at small limit
    omega

/-- An integer whose digits fit in 64 bits does. -/
theorem inRange_ofInt {i : Int} (fits : i.natAbs ≤ Text.maxWord) : (ofInt i).inRange = true := by
  have small : i.natAbs < 10 ^ 20 := Nat.lt_of_le_of_lt fits (by decide)
  exact inRange_of_length_le (Nat.le_trans (length_digits_le small (by decide)) (by decide))

end Numeral

/-! ## Integers in fields -/

/-- An integer has room in a field of so much. -/
theorem int_int {low high i : Int} :
    Decoder.int low high (.int i) = if low ≤ i ∧ i ≤ high then some i else none := by
  show (Numeral.ofInt i).int?.bind _ = _
  rw [Numeral.int?_ofInt]
  rfl

theorem word_int {bits : Nat} (fits : n < 2 ^ bits) : Decoder.word bits (.int n) = some n := by
  have bound : (n : Int) < 2 ^ bits := by exact_mod_cast fits
  have inside : (0 : Int) ≤ n ∧ (n : Int) ≤ Int.pow 2 bits - 1 := by
    show (0 : Int) ≤ n ∧ (n : Int) ≤ 2 ^ bits - 1
    omega
  unfold Decoder.word
  rw [int_int, if_pos inside]
  rfl

theorem word_nat {bits : Nat} (fits : n < 2 ^ bits) : Decoder.word bits (.nat n) = some n := by
  have number : Value.nat n = .int n := congrArg Value.number (Numeral.ofInt_natCast n).symm
  rw [number, word_int fits]

theorem signed_int {i : Int} (low : -(2 ^ 63) ≤ i) (high : i < 2 ^ 63) :
    Decoder.signed (.int i) = some i := by
  have inside : -(Int.pow 2 63) ≤ i ∧ i ≤ Int.pow 2 63 - 1 := by
    show -(2 ^ 63) ≤ i ∧ i ≤ 2 ^ 63 - 1
    omega
  unfold Decoder.signed
  rw [int_int, if_pos inside]

end SnippetRunner.Json
