import SnippetRunner.Proofs.Json.Scanning
import SnippetRunner.Proofs.Text.Utf16

/-!
# Written strings

However a character of a string is written, as itself, with a short escape or by the numbers of its
units, the scanner takes it for the same units. A string denotes the text that all its units encode
together, and no text where they encode none.
-/

namespace SnippetRunner.Json

open SnippetRunner.Text (codeUnits isHigh isLow ofPair decodeUtf16? unitChars?)

namespace Quote

/-- Inside a string these characters lead from one point to another. -/
def Leads (q : Quote) (cs : List Char) (q' : Quote) : Prop :=
  ∀ ts, Scan.run ⟨ts, .string q⟩ cs = some ⟨ts, .string q'⟩

/-- The units are added one after another. -/
def addAll (q : Quote) (us : List UInt16) : Quote := us.foldl (fun q u => q.addUnit u.toNat) q

variable {q q' q'' : Quote} {c : Char} {cs ds : List Char} {u : UInt16} {us vs : List UInt16}

theorem Leads.refl (q : Quote) : q.Leads [] q := fun _ => rfl

theorem Leads.trans (first : q.Leads cs q') (second : q'.Leads ds q'') : q.Leads (cs ++ ds) q'' := by
  intro ts
  rw [Scan.run_append, first ts]
  exact second ts

theorem addAll_append (q : Quote) (us vs : List UInt16) :
    q.addAll (us ++ vs) = (q.addAll us).addAll vs :=
  List.foldl_append

/-! ## Outside any escape -/

theorem escape_addUnit (q : Quote) (n : Nat) : (q.addUnit n).escape = .plain := by
  unfold addUnit
  cases q.high <;> simp only <;> split <;> (try split) <;> rfl

theorem escape_addAll (plain : q.escape = .plain) (us : List UInt16) :
    (q.addAll us).escape = .plain := by
  induction us generalizing q with
  | nil => exact plain
  | cons u us ih => exact ih (escape_addUnit q u.toNat)

/-! ## Characters and units -/

/-- A unit that is no surrogate adds its character. -/
theorem addUnit_of_plain (q : Quote) (h : (isHigh u || isLow u) = false) :
    q.addUnit u.toNat = q.add (Char.ofNat u.toNat) := by
  simp only [isHigh, isLow, Bool.or_eq_false_iff, Bool.and_eq_false_iff,
    decide_eq_false_iff_not] at h
  unfold addUnit add
  cases q.high with
  | none =>
    simp only
    rw [if_neg (by omega), if_neg (by omega)]
  | some high =>
    simp only
    rw [if_neg (by omega)]

/-- A unit that opens a pair waits for the one that closes it. -/
theorem addUnit_of_isHigh (free : q.high = none) (high : isHigh u = true) :
    q.addUnit u.toNat = ⟨q.chars, some u.toNat, .plain⟩ := by
  simp only [isHigh, Bool.and_eq_true, decide_eq_true_eq] at high
  unfold addUnit
  simp only [free]
  rw [if_pos high]

/-- A unit that closes a pair without one before it that opens it denotes no text. -/
theorem addUnit_of_isLow (free : q.high = none) (low : isLow u = true) :
    q.addUnit u.toNat = ⟨none, none, .plain⟩ := by
  simp only [isLow, Bool.and_eq_true, decide_eq_true_eq] at low
  unfold addUnit
  simp only [free]
  rw [if_neg (by omega), if_pos low]

/-- A unit that closes no pair leaves the one before it without its partner. -/
theorem addUnit_of_waiting {n : Nat} (waiting : q.high = some n) (other : isLow u = false) :
    q.addUnit u.toNat = ⟨none, none, .plain⟩ := by
  simp only [isLow, Bool.and_eq_false_iff, decide_eq_false_iff_not] at other
  unfold addUnit
  simp only [waiting]
  rw [if_neg (by omega)]

/-- A pair adds its character. -/
theorem addUnit_addUnit_of_pair (q : Quote) {v : UInt16} (high : isHigh u = true)
    (low : isLow v = true) : (q.addUnit u.toNat).addUnit v.toNat = q.add (ofPair u v) := by
  unfold add
  cases before : q.high with
  | none =>
    have closes : 0xDC00 ≤ v.toNat ∧ v.toNat ≤ 0xDFFF := by
      simpa only [isLow, Bool.and_eq_true, decide_eq_true_eq] using low
    rw [addUnit_of_isHigh before high]
    unfold addUnit
    simp only
    rw [if_pos closes]
    rfl
  | some lonely =>
    rw [addUnit_of_waiting before (Text.isLow_of_isHigh high)]
    exact addUnit_of_isLow rfl low

/-- A character adds its units. -/
theorem add_eq_addAll (q : Quote) (c : Char) : q.add c = q.addAll (codeUnits c.toNat) := by
  rcases Text.codeUnits_toNat c with ⟨u, units, plain, rfl⟩ | ⟨u, v, units, high, low, rfl⟩
  · rw [units]
    exact (addUnit_of_plain q plain).symm
  · rw [units]
    exact (addUnit_addUnit_of_pair q high low).symm

/-! ## What a string denotes -/

/-- Once the characters denote no text, no more of them do. -/
theorem chars_addAll_of_none (q : Quote) (lost : q.chars = none) (us : List UInt16) :
    (q.addAll us).chars = none := by
  induction us generalizing q with
  | nil => exact lost
  | cons u us ih =>
    apply ih
    unfold addUnit
    cases q.high <;> simp only <;> split <;> (try split) <;> simp [lost]

theorem close_of_none (lost : q.chars = none) : q.close = none := by
  unfold close
  cases q.high <;> simp [lost]

/-- A string in which a unit has no partner denotes no text. -/
theorem close_addAll_of_none (us : List UInt16) : (addAll ⟨none, none, .plain⟩ us).close = none :=
  close_of_none (chars_addAll_of_none _ rfl us)

/-- After some characters, these units make a string of the characters that they encode. -/
def Reads (us : List UInt16) : Prop :=
  ∀ cs, (addAll ⟨some cs, none, .plain⟩ us).close =
    (unitChars? us).map fun ds => String.ofList (cs.reverse ++ ds)

theorem reads_nil : Reads [] := by
  intro cs
  simp [addAll, close, unitChars?]

/-- A unit that is no surrogate is read by itself. -/
theorem Reads.cons (h : Reads us) (plain : (isHigh u || isLow u) = false) : Reads (u :: us) := by
  intro cs
  show (addAll (addUnit _ u.toNat) us).close = _
  rw [addUnit_of_plain _ plain, Text.unitChars?_cons_of_plain plain, Option.map_map]
  show (addAll ⟨some (Char.ofNat u.toNat :: cs), none, .plain⟩ us).close = _
  rw [h]
  simp [Function.comp_def]

/-- A pair is read as one character. -/
theorem Reads.pair {v : UInt16} (h : Reads us) (high : isHigh u = true) (low : isLow v = true) :
    Reads (u :: v :: us) := by
  intro cs
  show (addAll (addUnit (addUnit _ u.toNat) v.toNat) us).close = _
  rw [addUnit_addUnit_of_pair _ high low, Text.unitChars?_cons_of_pair high low, Option.map_map]
  show (addAll ⟨some (ofPair u v :: cs), none, .plain⟩ us).close = _
  rw [h]
  simp [Function.comp_def]

/-- All units are read as the characters that they encode. -/
theorem reads (us : List UInt16) : Reads us := by
  -- one case for each way in which units begin: pairs and the others, and surrogates without a partner
  induction us using Text.unitChars?.induct with
  | case1 => exact reads_nil
  | case2 u surrogate =>
    intro cs
    rw [unitChars?, if_pos surrogate]
    show (addUnit ⟨some cs, none, .plain⟩ u.toNat).close = none
    cases high : isHigh u with
    | true =>
      rw [addUnit_of_isHigh rfl high]
      rfl
    | false =>
      rw [high, Bool.false_or] at surrogate
      rw [addUnit_of_isLow rfl surrogate]
      rfl
  | case3 u plain => exact reads_nil.cons (by simpa using plain)
  | case4 u v us high low ih => exact ih.pair high low
  | case5 u v us high other =>
    intro cs
    rw [unitChars?, if_pos high, if_neg other]
    show (addAll (addUnit (addUnit _ u.toNat) v.toNat) us).close = none
    rw [addUnit_of_isHigh rfl high, addUnit_of_waiting rfl (by simpa using other)]
    exact close_addAll_of_none us
  | case6 u v us other low =>
    intro cs
    rw [unitChars?, if_neg other, if_pos low]
    show (addAll (addUnit _ u.toNat) (v :: us)).close = none
    rw [addUnit_of_isLow rfl low]
    exact close_addAll_of_none (v :: us)
  | case7 u v us high low ih => exact ih.cons (by simp [high, low])

/-- A string denotes the text that its units encode. -/
theorem close_addAll_start (us : List UInt16) : (start.addAll us).close = decodeUtf16? us :=
  reads us []

/-! ## Written characters -/

/-- Inside a string a character goes to the string, unless it is the quote that closes it. -/
theorem leads_of_push (inside : c = '"' → q.escape ≠ .plain) (h : q.push c = some q') :
    q.Leads [c] q' := by
  intro ts
  have open_ : ¬(c = '"' ∧ q.escape = .plain) := fun closes => inside closes.1 closes.2
  have pushed : Scan.push ⟨ts, .string q⟩ c = some ⟨ts, .string q'⟩ := by
    unfold Scan.push
    simp only
    rw [if_neg open_, h]
    rfl
  rw [Scan.run_cons, pushed]
  rfl

/-- A character that is neither the quote nor the backslash nor a control character stands for
itself. -/
theorem leads_raw (plain : q.escape = .plain) (quote : c ≠ '"') (backslash : c ≠ '\\')
    (visible : 0x20 ≤ c.toNat) : q.Leads [c] (q.add c) := by
  apply leads_of_push fun is => (quote is).elim
  unfold push
  simp only [plain]
  rw [if_neg backslash, if_neg (by omega)]

/-- A backslash begins an escape. -/
theorem leads_backslash (plain : q.escape = .plain) :
    q.Leads ['\\'] { q with escape := .backslash } := by
  apply leads_of_push fun is => absurd is (by decide)
  unfold push
  simp only [plain, if_true]

/-- A short escape. -/
theorem leads_short {d : Char} (plain : q.escape = .plain) (other : c ≠ 'u') (h : short? c = some d) :
    q.Leads ['\\', c] (q.add d) := by
  show q.Leads (['\\'] ++ [c]) _
  refine (leads_backslash plain).trans (leads_of_push (fun _ => ?_) ?_)
  · simp
  · unfold push
    simp only
    rw [if_neg other, h]
    rfl

/-- The digits of a unit are read one after another. -/
theorem hexDigit?_digitChar : ∀ n < 16, Text.hexDigit? (Nat.digitChar n) = some n := by decide

/-- A string inside the number of a unit, with so many digits missing. -/
def within (q : Quote) (missing code : Nat) : Quote := ⟨q.chars, q.high, .unit missing code⟩

/-- A digit with more to come. -/
theorem leads_digit (q : Quote) (missing code : Nat) {n : Nat} (digit : Text.hexDigit? c = some n) :
    (q.within (missing + 2) code).Leads [c] (q.within (missing + 1) (code * 16 + n)) := by
  apply leads_of_push fun _ => by simp [within]
  unfold push within
  simp only [digit]
  rw [if_neg (by omega)]
  rfl

/-- The last digit adds the unit. -/
theorem leads_lastDigit (q : Quote) (code : Nat) {n : Nat} (digit : Text.hexDigit? c = some n) :
    (q.within 1 code).Leads [c] (q.addUnit (code * 16 + n)) := by
  apply leads_of_push fun _ => by simp [within]
  unfold push within
  simp only [digit]
  rw [if_pos (Nat.le_refl 1)]
  rfl

/-- A unit by its number in any four digits of these values. -/
theorem leads_hexUnit {n : Nat} {c₁ c₂ c₃ c₄ : Char} (plain : q.escape = .plain)
    (first : Text.hexDigit? c₁ = some (n / 0x1000))
    (second : Text.hexDigit? c₂ = some (n / 0x100 % 0x10))
    (third : Text.hexDigit? c₃ = some (n / 0x10 % 0x10))
    (last : Text.hexDigit? c₄ = some (n % 0x10)) :
    q.Leads ['\\', 'u', c₁, c₂, c₃, c₄] (q.addUnit n) := by
  have opened : q.Leads ['\\', 'u'] (q.within 4 0) := by
    show q.Leads (['\\'] ++ ['u']) _
    refine (leads_backslash plain).trans (leads_of_push (fun _ => ?_) ?_)
    · simp
    · rfl
  -- four digits, the first one the most significant
  have first := leads_digit q 2 0 first
  have second := leads_digit q 1 (0 * 16 + n / 0x1000) second
  have third := leads_digit q 0 ((0 * 16 + n / 0x1000) * 16 + n / 0x100 % 0x10) third
  have last := leads_lastDigit q
    (((0 * 16 + n / 0x1000) * 16 + n / 0x100 % 0x10) * 16 + n / 0x10 % 0x10) last
  have value : (((0 * 16 + n / 0x1000) * 16 + n / 0x100 % 0x10) * 16 + n / 0x10 % 0x10) * 16 +
      n % 0x10 = n := by omega
  rw [value] at last
  exact (((opened.trans first).trans second).trans third).trans last

/-- A unit by its number in four digits. -/
theorem leads_unit {n : Nat} (plain : q.escape = .plain) (small : n < 0x10000) :
    q.Leads ['\\', 'u', Nat.digitChar (n / 0x1000), Nat.digitChar (n / 0x100 % 0x10),
      Nat.digitChar (n / 0x10 % 0x10), Nat.digitChar (n % 0x10)] (q.addUnit n) :=
  leads_hexUnit plain (hexDigit?_digitChar _ (by omega)) (hexDigit?_digitChar _ (by omega))
    (hexDigit?_digitChar _ (by omega)) (hexDigit?_digitChar _ (by omega))

/-- A control character by its number. -/
theorem leads_control (plain : q.escape = .plain) (control : c.toNat < 0x20) :
    q.Leads ['\\', 'u', '0', '0', Nat.digitChar (c.toNat / 16), Nat.digitChar (c.toNat % 16)]
      (q.add c) := by
  have unit := leads_unit (n := c.toNat) plain (by omega)
  have first : c.toNat / 0x1000 = 0 := by omega
  have second : c.toNat / 0x100 % 0x10 = 0 := by omega
  have third : c.toNat / 0x10 % 0x10 = c.toNat / 16 := by omega
  have same : q.add c = q.addUnit c.toNat := by
    have number : (UInt16.ofNat c.toNat).toNat = c.toNat :=
      UInt16.toNat_ofNat_of_lt (by unfold UInt16.size; omega)
    rw [add_eq_addAll, Text.codeUnits, if_pos (by omega)]
    exact congrArg q.addUnit number
  rw [first, second, third] at unit
  rw [same]
  exact unit

/-- A character that is escaped where it has to be is added. -/
theorem leads_escaped (plain : q.escape = .plain) (c : Char) : q.Leads (escaped c) (q.add c) := by
  unfold escaped
  split
  case h_8 quote backslash _ _ _ _ _ =>
    -- no short escape: a number for a control character, and else the character itself
    by_cases control : c.toNat < 0x20
    · rw [if_pos control]
      exact leads_control plain control
    · rw [if_neg control]
      exact leads_raw plain quote backslash (by omega)
  all_goals exact leads_short plain (by decide) rfl

/-- A string of which every part adds its units. -/
theorem leads_flatMap {α : Type} {f : α → List Char} {g : α → List UInt16}
    (each : ∀ (a : α) (q : Quote), q.escape = .plain → q.Leads (f a) (q.addAll (g a)))
    (plain : q.escape = .plain) (as : List α) : q.Leads (as.flatMap f) (q.addAll (as.flatMap g)) := by
  induction as generalizing q with
  | nil => exact .refl q
  | cons a as ih =>
    rw [List.flatMap_cons, List.flatMap_cons, addAll_append]
    exact (each a q plain).trans (ih (escape_addAll plain (g a)))

end Quote

namespace Scan

/-- A string between its quotes. -/
theorem spells_string {cs : List Char} {q : Quote} (inside : Quote.start.Leads cs q)
    (plain : q.escape = .plain) : Spells ('"' :: cs ++ ['"']) [.string q.close] := by
  intro before
  have opened : push ⟨before, .between⟩ '"' = some ⟨before, .string .start⟩ := rfl
  have closed : push ⟨before, .string q⟩ '"' = some ⟨.string q.close :: before, .between⟩ :=
    if_pos ⟨rfl, plain⟩
  rw [List.cons_append, run_cons, opened, Option.bind_some, run_append, inside before,
    Option.bind_some, run_cons, closed]
  rfl

end Scan

end SnippetRunner.Json
