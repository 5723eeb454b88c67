import SnippetRunner.Text.Decimal

/-!
# Numbers that texts write

Which texts are read as numbers of 64 bits, said without the reader: decimal digits, any number of them but
not none, which a plus sign may precede, as long as their value fits. The reader refuses as soon as the digits
so far are too much, and since more digits never make a number smaller, it refuses no number that fits.
-/

namespace SnippetRunner.Text

variable {c : Char} {cs : List Char} {d m n : Nat} {ds : List Nat} {s : String}

theorem digit?_eq_some_iff : digit? c = some d ↔ d < 10 ∧ c = Nat.digitChar d := by
  have zero : '0'.toNat = 48 := rfl
  have low : '0' ≤ c ↔ 48 ≤ c.toNat := Iff.rfl
  have high : c ≤ '9' ↔ c.toNat ≤ 57 := Iff.rfl
  unfold digit?
  rw [Option.ite_none_right_eq_some, low, high, zero, Option.some.injEq]
  constructor
  · rintro ⟨range, rfl⟩
    refine ⟨by omega, Char.toNat_inj.1 ?_⟩
    rw [Nat.toNat_digitChar_of_lt_ten (by omega)]
    omega
  · rintro ⟨small, rfl⟩
    rw [Nat.toNat_digitChar_of_lt_ten small]
    omega

/-- Digits behind others never make a number smaller. -/
theorem le_foldl_digits (m : Nat) (ds : List Nat) : m ≤ ds.foldl (fun n d => n * 10 + d) m := by
  induction ds generalizing m with
  | nil => exact Nat.le_refl m
  | cons d ds ih =>
    have onward := ih (m * 10 + d)
    rw [List.foldl_cons]
    omega

/-- Digits are read one after another, and their value is a number that fits. -/
theorem foldlM_pushDigit_eq_ok_iff (fits : m ≤ maxWord) :
    cs.foldlM pushDigit m = .ok n ↔
      ∃ ds : List Nat, cs = ds.map Nat.digitChar ∧ (∀ d ∈ ds, d < 10) ∧
        ds.foldl (fun n d => n * 10 + d) m = n ∧ n ≤ maxWord := by
  induction cs generalizing m with
  | nil =>
    constructor
    · rintro ⟨⟩
      exact ⟨[], rfl, List.forall_mem_nil _, rfl, fits⟩
    · rintro ⟨ds, none_, -, rfl, -⟩
      obtain rfl := List.map_eq_nil_iff.1 none_.symm
      rfl
  | cons c cs ih =>
    rw [List.foldlM_cons]
    constructor
    · intro read
      unfold pushDigit at read
      cases digit : digit? c with
      | none =>
        rw [digit] at read
        cases read
      | some d =>
        rw [digit] at read
        obtain ⟨small, rfl⟩ := digit?_eq_some_iff.1 digit
        simp only at read
        split at read
        next more =>
          obtain ⟨ds, rfl, digits, value, bound⟩ := (ih more).1 read
          exact ⟨d :: ds, rfl, List.forall_mem_cons.2 ⟨small, digits⟩, value, bound⟩
        next => cases read
    · rintro ⟨ds, spelled, digits, value, bound⟩
      obtain ⟨d, ds, rfl, rfl, rfl⟩ := List.map_eq_cons_iff.1 spelled.symm
      obtain ⟨small, digits⟩ := List.forall_mem_cons.1 digits
      rw [List.foldl_cons] at value
      -- the number is not yet greater than it will be in the end
      have more : m * 10 + d ≤ maxWord := by
        have onward := le_foldl_digits (m * 10 + d) ds
        omega
      have pushed : pushDigit m (Nat.digitChar d) = .ok (m * 10 + d) := by
        unfold pushDigit
        rw [digit?_eq_some_iff.2 ⟨small, rfl⟩]
        exact if_pos more
      rw [pushed]
      exact (ih more).2 ⟨ds, rfl, digits, value, bound⟩

/-- The text writes a number of 64 bits in decimal digits. A plus sign may stand before them. -/
def WritesWord (s : String) (n : Nat) : Prop :=
  ∃ ds : List Nat, ds ≠ [] ∧ (∀ d ∈ ds, d < 10) ∧ ofDigits 10 ds = n ∧ n ≤ maxWord ∧
    (s.toList = ds.map Nat.digitChar ∨ s.toList = '+' :: ds.map Nat.digitChar)

/-- A sign is no digit. -/
theorem plus_cons_ne_digits (small : ∀ d ∈ ds, d < 10) : '+' :: cs ≠ ds.map Nat.digitChar := by
  have other : ∀ d < 10, Nat.digitChar d ≠ '+' := by decide
  intro spelled
  obtain ⟨d, ds, rfl, sign, -⟩ := List.map_eq_cons_iff.1 spelled.symm
  exact other d (small d (List.mem_cons_self ..)) sign

theorem word?_eq_ok_iff : word? s = .ok n ↔ WritesWord s n := by
  unfold word? WritesWord ofDigits
  split
  next empty =>
    refine ⟨nofun, ?_⟩
    rintro ⟨ds, some_, -, -, -, spelled⟩
    simp [empty, some_] at spelled
  next plus =>
    refine ⟨nofun, ?_⟩
    rintro ⟨ds, some_, small, -, -, spelled⟩
    rw [plus] at spelled
    rcases spelled with spelled | spelled
    · exact absurd spelled (plus_cons_ne_digits small)
    · exact absurd (by simpa using spelled) some_
  next cs more signed =>
    rw [foldlM_pushDigit_eq_ok_iff (Nat.zero_le _)]
    constructor
    · rintro ⟨ds, rfl, small, value, bound⟩
      refine ⟨ds, ?_, small, value, bound, .inr signed⟩
      rintro rfl
      exact more rfl
    · rintro ⟨ds, -, small, value, bound, spelled⟩
      rw [signed] at spelled
      rcases spelled with spelled | spelled
      · exact absurd spelled (plus_cons_ne_digits small)
      · exact ⟨ds, (List.cons.inj spelled).2, small, value, bound⟩
  next empty _ unsigned =>
    rw [foldlM_pushDigit_eq_ok_iff (Nat.zero_le _)]
    constructor
    · rintro ⟨ds, spelled, small, value, bound⟩
      refine ⟨ds, ?_, small, value, bound, .inl spelled⟩
      rintro rfl
      exact empty spelled
    · rintro ⟨ds, -, small, value, bound, spelled⟩
      exact ⟨ds, spelled.resolve_right (unsigned _), small, value, bound⟩

end SnippetRunner.Text
