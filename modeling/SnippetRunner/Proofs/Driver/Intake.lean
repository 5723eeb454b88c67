import SnippetRunner.Driver.Intake
import SnippetRunner.Proofs.Driver.Shape
import SnippetRunner.Proofs.Json.RoundTrip
import SnippetRunner.Proofs.Json.Unquoted

/-!
# How requests come to the drivers

A request is written as one line, and Python reads it as one. The reader of JavaScript also ends a line
at U+2028 and at U+2029, and code may hold them: then it makes several lines of the request, and no one
of them has the number of the request in it. The induction is on the code, with the characters of the
line that has begun as the state.
-/

namespace SnippetRunner.Driver

open SnippetRunner.Json (Scan Quote escaped)
open SnippetRunner.Wire (Request)

namespace Dialect

variable {d : Dialect} {begun cs : List Char} {c : Char}

/-! ## Lines -/

/-- The reader ends no line among the characters. -/
def Unbroken (d : Dialect) (cs : List Char) : Prop := ∀ c ∈ cs, d.isBreak c = false

theorem isBreak_newline (d : Dialect) : d.isBreak '\n' = true := by
  cases d <;> rfl

theorem isBreak_return (d : Dialect) : d.isBreak '\r' = true := by
  cases d <;> rfl

/-- One character of the line that has begun. -/
theorem linesFrom_cons (begun cs : List Char) (other : d.isBreak c = false) :
    d.linesFrom begun (c :: cs) = d.linesFrom (c :: begun) cs := by
  have noReturn : c ≠ '\r' := fun is => by simp [is, isBreak_return] at other
  rw [linesFrom]
  · simp [other]
  · intro _ is
    exact absurd is noReturn

/-- The end of a line. -/
theorem linesFrom_break (begun cs : List Char) (ends : d.isBreak c = true) (other : c ≠ '\r') :
    d.linesFrom begun (c :: cs) = String.ofList begun.reverse :: d.linesFrom [] cs := by
  rw [linesFrom]
  · rw [if_pos ends]
  · intro _ is
    exact absurd is other

/-- Characters of the line that has begun. -/
theorem linesFrom_append (unbroken : d.Unbroken cs) (begun more : List Char) :
    d.linesFrom begun (cs ++ more) = d.linesFrom (cs.reverse ++ begun) more := by
  induction cs generalizing begun with
  | nil => rfl
  | cons c cs ih =>
    rw [List.cons_append, linesFrom_cons begun _ (unbroken c (List.mem_cons_self ..)),
      ih fun c inside => unbroken c (List.mem_cons_of_mem _ inside), List.reverse_cons,
      List.append_assoc]
    rfl

/-! ## Characters of a written string -/

/-- A character at which the reader ends a line, and which JSON does not escape. -/
def survives (d : Dialect) (c : Char) : Bool := d.isBreak c && 0x20 ≤ c.toNat

theorem survives_iff : d.survives c = true ↔ d = .javaScript ∧ (c = '\u2028' ∨ c = '\u2029') := by
  have newline : (0x20 ≤ ('\n' : Char).toNat) = False := by decide
  have carriage : (0x20 ≤ ('\r' : Char).toNat) = False := by decide
  constructor
  · intro h
    obtain ⟨ends, visible⟩ := Bool.and_eq_true_iff.1 h
    have visible : 0x20 ≤ c.toNat := of_decide_eq_true visible
    have noNewline : c ≠ '\n' := fun is => newline.mp (is ▸ visible)
    have noReturn : c ≠ '\r' := fun is => carriage.mp (is ▸ visible)
    cases d with
    | python => simp [isBreak, noNewline, noReturn] at ends
    | javaScript => exact ⟨rfl, by simpa [isBreak, noNewline, noReturn] using ends⟩
  · rintro ⟨rfl, rfl | rfl⟩ <;> rfl

/-- Characters that are neither control characters nor one of the two separators. -/
theorem unbroken_of_visible (visible : Visible cs) (harmless : ∀ c ∈ cs, d.survives c = false) :
    d.Unbroken cs := by
  intro c inside
  have large := visible c inside
  have dead := harmless c inside
  unfold survives at dead
  simpa [large] using dead

/-- A character in ASCII is no separator. -/
theorem survives_of_ascii (ascii : c.toNat < 0x80) : d.survives c = false := by
  rw [Bool.eq_false_iff]
  intro h
  obtain ⟨-, rfl | rfl⟩ := survives_iff.1 h <;> exact absurd ascii (by decide)

theorem ascii_hexDigit : ∀ n < 16, (Nat.digitChar n).toNat < 0x80 := by decide

/-- What is written for a character is the character or ASCII. -/
theorem eq_or_ascii_of_mem_escaped {x : Char} (h : x ∈ escaped c) : x = c ∨ x.toNat < 0x80 := by
  unfold escaped at h
  split at h
  -- `h_8` is a character without an escape of its own, which may still be a control character
  case h_8 =>
    by_cases control : c.toNat < 0x20
    · rw [if_pos control] at h
      have first := ascii_hexDigit (c.toNat / 16) (by omega)
      have second := ascii_hexDigit (c.toNat % 16) (by omega)
      simp only [List.mem_cons, List.not_mem_nil, or_false] at h
      rcases h with rfl | rfl | rfl | rfl | rfl | rfl
      all_goals first | exact .inr (by decide) | exact .inr first | exact .inr second
    · rw [if_neg control] at h
      exact .inl (List.mem_singleton.1 h)
  all_goals
    simp only [List.mem_cons, List.not_mem_nil, or_false] at h
    rcases h with rfl | rfl <;> exact .inr (by decide)

/-- Only a separator leaves a line end in the written string. -/
theorem unbroken_escaped (other : d.survives c = false) : d.Unbroken (escaped c) := by
  refine unbroken_of_visible (visible_escaped c) fun x inside => ?_
  rcases eq_or_ascii_of_mem_escaped inside with rfl | ascii
  · exact other
  · exact survives_of_ascii ascii

/-- A separator is written as itself. -/
theorem escaped_of_survives (h : d.survives c = true) : escaped c = [c] := by
  obtain ⟨-, rfl | rfl⟩ := survives_iff.1 h <;> rfl

/-! ## The lines of a request -/

/-- The lines that the reader makes of a written string, as characters: the first one with what has
begun it, and the last one with the end of the request. -/
def piecesFrom (d : Dialect) (begun : List Char) : List Char → List (List Char)
  | [] => [begun ++ ['"', '\x7d']]
  | c :: cs =>
    if d.survives c then begun :: piecesFrom d [] cs else piecesFrom d (begun ++ escaped c) cs

/-- The reader ends lines of a request at the separators in its code and at its newline. -/
theorem linesFrom_written (d : Dialect) (begun code more : List Char) :
    d.linesFrom begun.reverse (code.flatMap escaped ++ '"' :: '\x7d' :: '\n' :: more) =
      (d.piecesFrom begun code).map String.ofList ++ d.linesFrom [] more := by
  -- the reader keeps what has begun its line in reverse, and the code decides where the line ends
  induction code generalizing begun with
  | nil =>
    have closing : d.Unbroken ['"', '\x7d'] :=
      unbroken_of_visible (by decide) fun c inside => survives_of_ascii (by
        simp only [List.mem_cons, List.not_mem_nil, or_false] at inside
        rcases inside with rfl | rfl <;> decide)
    have ends := linesFrom_break (begun ++ ['"', '\x7d']).reverse more d.isBreak_newline (by decide)
    rw [List.reverse_reverse, List.reverse_append] at ends
    show d.linesFrom begun.reverse (['"', '\x7d'] ++ '\n' :: more) = _
    rw [linesFrom_append closing, ends]
    rfl
  | cons c code ih =>
    rw [List.flatMap_cons, List.append_assoc]
    by_cases separator : d.survives c = true
    · have ends : d.isBreak c = true := (Bool.and_eq_true_iff.1 separator).1
      have other : c ≠ '\r' := by
        obtain ⟨-, rfl | rfl⟩ := survives_iff.1 separator <;> decide
      rw [escaped_of_survives separator, List.singleton_append, linesFrom_break _ _ ends other,
        List.reverse_reverse, piecesFrom, if_pos separator]
      exact congrArg _ (ih [])
    · have unbroken := unbroken_escaped (Bool.eq_false_iff.2 separator)
      rw [linesFrom_append unbroken, ← List.reverse_append, ih, piecesFrom, if_neg separator]

/-- Without a separator in the code there is one line. -/
theorem piecesFrom_of_intact {code : List Char} (intact : ∀ c ∈ code, d.survives c = false)
    (begun : List Char) :
    d.piecesFrom begun code = [begun ++ code.flatMap escaped ++ ['"', '\x7d']] := by
  induction code generalizing begun with
  | nil => rw [piecesFrom, List.flatMap_nil, List.append_nil]
  | cons c code ih =>
    have first := intact c (List.mem_cons_self ..)
    rw [piecesFrom, if_neg (by simp [first]), ih fun c inside => intact c (List.mem_cons_of_mem _ inside),
      List.flatMap_cons, List.append_assoc begun]

/-- With one there are several. -/
theorem one_lt_length_piecesFrom {code : List Char} (broken : ∃ c ∈ code, d.survives c = true)
    (begun : List Char) : 1 < (d.piecesFrom begun code).length := by
  -- the part after the separator is a line of its own, however short the code ends there
  have pos : ∀ (code begun : List Char), 0 < (d.piecesFrom begun code).length := by
    intro code
    induction code with
    | nil => exact fun _ => Nat.one_pos
    | cons c code ih =>
      intro begun
      rw [piecesFrom]
      split
      · exact Nat.succ_pos _
      · exact ih _
  induction code generalizing begun with
  | nil =>
    obtain ⟨c, inside, -⟩ := broken
    cases inside
  | cons c code ih =>
    rw [piecesFrom]
    split
    next =>
      rw [List.length_cons]
      exact Nat.succ_lt_succ (pos code [])
    next other =>
      apply ih
      obtain ⟨x, inside, separator⟩ := broken
      rcases List.mem_cons.1 inside with rfl | inside
      · exact absurd separator other
      · exact ⟨x, inside, separator⟩

/-! ## What the lines of a torn request say -/

/-- The line denotes no value with a member. -/
def Mute (line : List Char) : Prop :=
  ∀ v, Json.parse? (String.ofList line) = some v → v.Memberless

/-- The characters end inside a string and outside any escape. -/
def InString (cs : List Char) : Prop :=
  ∃ ts q, Scan.start.run cs = some ⟨ts, .string q⟩ ∧ q.escape = .plain

/-- No string begins in the characters. -/
def OutsideStrings (cs : List Char) : Prop := ∀ s, Scan.start.run cs = some s → s.Unquoted

theorem InString.mute (h : InString cs) : Mute cs := by
  obtain ⟨ts, q, inside, -⟩ := h
  intro v is
  rw [Json.parse?_of_open inside] at is
  cases is

theorem InString.escaped (h : InString cs) (c : Char) : InString (cs ++ escaped c) := by
  obtain ⟨ts, q, inside, plain⟩ := h
  refine ⟨ts, q.add c, ?_, ?_⟩
  · rw [Scan.run_append, inside]
    exact Quote.leads_escaped plain c ts
  · rw [Quote.add_eq_addAll]
    exact Quote.escape_addAll plain _

theorem OutsideStrings.mute (h : OutsideStrings cs) : Mute cs :=
  fun _ is => Json.memberless_of_unquoted h is

theorem outsideStrings_nil : OutsideStrings [] := by
  rintro s ⟨⟩
  exact Scan.unquoted_start

/-- A backslash outside strings cannot stand, and every other character that is written begins none. -/
theorem OutsideStrings.escaped (h : OutsideStrings cs) (c : Char) :
    OutsideStrings (cs ++ escaped c) := by
  intro s' ran
  rw [Scan.run_append] at ran
  obtain ⟨s, before, ran⟩ := Option.bind_eq_some_iff.1 ran
  have unquoted := h s before
  -- whatever is written with a backslash stops the reader outside a string
  have refused : ∀ ds, s.run ('\\' :: ds) ≠ some s' := by
    intro ds is
    rw [Scan.run_cons, unquoted.push_backslash] at is
    cases is
  unfold Json.escaped at ran
  split at ran
  case h_8 quote backslash _ _ _ _ _ =>
    by_cases control : c.toNat < 0x20
    · rw [if_pos control] at ran
      exact absurd ran (refused _)
    · rw [if_neg control, Scan.run_cons] at ran
      obtain ⟨next, pushed, rfl⟩ : ∃ next, s.push c = some next ∧ next = s' := by
        simpa [Scan.run] using ran
      exact unquoted.push quote pushed
  all_goals exact absurd ran (refused _)

/-- The quote that closed the string of the code opens one that does not end. -/
theorem OutsideStrings.mute_last (h : OutsideStrings cs) : Mute (cs ++ ['"', '\x7d']) := by
  intro v is
  cases ran : Scan.start.run (cs ++ ['"', '\x7d']) with
  | none =>
    have noTokens : Json.tokens? (String.ofList (cs ++ ['"', '\x7d'])) = none := by
      show (Scan.run .start (String.ofList _).toList).bind _ = none
      rw [String.toList_ofList, ran]
      rfl
    unfold Json.parse? at is
    rw [noTokens] at is
    cases is
  | some s' =>
    have whole := ran
    rw [Scan.run_append] at ran
    obtain ⟨s, before, ran⟩ := Option.bind_eq_some_iff.1 ran
    rw [Scan.run_cons] at ran
    obtain ⟨⟨ts, mode⟩, quote, ran⟩ := Option.bind_eq_some_iff.1 ran
    obtain rfl : mode = .string .start := (h s before).push_quote quote
    cases ran
    rw [Json.parse?_of_open whole] at is
    cases is

/-- No line of the code after a separator has a member. -/
theorem mute_piecesFrom_of_outsideStrings (code : List Char) {begun : List Char}
    (h : OutsideStrings begun) : ∀ line ∈ d.piecesFrom begun code, Mute line := by
  induction code generalizing begun with
  | nil =>
    intro line inside
    rw [piecesFrom, List.mem_singleton] at inside
    rw [inside]
    exact h.mute_last
  | cons c code ih =>
    rw [piecesFrom]
    split
    · intro line inside
      rcases List.mem_cons.1 inside with rfl | inside
      · exact h.mute
      · exact ih outsideStrings_nil line inside
    · exact ih (h.escaped c)

/-- No line of a request whose code holds a separator has a member. -/
theorem mute_piecesFrom {code begun : List Char} (h : InString begun)
    (broken : ∃ c ∈ code, d.survives c = true) : ∀ line ∈ d.piecesFrom begun code, Mute line := by
  induction code generalizing begun with
  | nil =>
    obtain ⟨c, inside, -⟩ := broken
    cases inside
  | cons c code ih =>
    rw [piecesFrom]
    split
    · -- the first separator: the line up to it ends inside the string, and the others follow it
      intro line inside
      rcases List.mem_cons.1 inside with rfl | inside
      · exact h.mute
      · exact mute_piecesFrom_of_outsideStrings code outsideStrings_nil line inside
    next other =>
      apply ih (h.escaped c)
      obtain ⟨x, inside, separator⟩ := broken
      rcases List.mem_cons.1 inside with rfl | inside
      · exact absurd separator other
      · exact ⟨x, inside, separator⟩

/-! ## Requests -/

/-- The code holds no character at which the reader of the driver ends a line although it stands
inside a string. -/
def Intact (d : Dialect) (code : String) : Prop :=
  d = .python ∨ '\u2028' ∉ code.toList ∧ '\u2029' ∉ code.toList

theorem intact_iff {code : String} :
    d.Intact code ↔ ∀ c ∈ code.toList, d.survives c = false := by
  constructor
  · intro intact c inside
    rw [Bool.eq_false_iff]
    intro separator
    obtain ⟨rfl, is⟩ := survives_iff.1 separator
    obtain ⟨line, paragraph⟩ : _ ∧ _ := intact.resolve_left (by decide)
    rcases is with rfl | rfl
    · exact line inside
    · exact paragraph inside
  · intro dead
    cases d with
    | python => exact .inl rfl
    | javaScript =>
      refine .inr ⟨fun inside => ?_, fun inside => ?_⟩
      · exact absurd (dead _ inside) (by decide)
      · exact absurd (dead _ inside) (by decide)

theorem not_intact_iff {code : String} :
    ¬d.Intact code ↔ ∃ c ∈ code.toList, d.survives c = true := by
  rw [intact_iff]
  simp only [not_forall, Bool.not_eq_false, exists_prop]

/-- What stands before the code in the line of a request. -/
def opening (id : Nat) : List Char :=
  ['\x7b', '"', 'i', 'd', '"', ':'] ++ (Json.Token.number (.ofNat id)).chars ++
    [',', '"', 'c', 'o', 'd', 'e', '"', ':', '"']

theorem toList_write (r : Request) :
    r.toJson.write.toList = opening r.id ++ r.code.toList.flatMap escaped ++ ['"', '\x7d'] := by
  show (String.ofList (Json.spelling _)).toList = _
  rw [String.toList_ofList]
  simp [Request.toJson, Json.Value.record, Json.Value.nat, Json.Value.text, Json.Value.tokens,
    Json.memberTokens, Json.spelling, Json.Token.chars, opening, escaped]

theorem inString_opening (id : Nat) : InString (opening id) := by
  have stops : Json.Stops ',' := by decide
  have number := Scan.spellsBefore_int id [.colon, .string (some "id"), .openObject] ',' stops
  rw [Json.Numeral.ofInt_natCast] at number
  have first : Scan.start.run ['\x7b', '"', 'i', 'd', '"', ':'] =
      some ⟨[.colon, .string (some "id"), .openObject], .between⟩ := rfl
  have ran : Scan.start.run (opening id) =
      some ⟨[.colon, .string (some "code"), .comma, .number (.ofNat id), .colon, .string (some "id"),
        .openObject], .string .start⟩ := by
    rw [opening, List.append_assoc, Scan.run_append, first, Option.bind_some, List.append_cons,
      Scan.run_append, number]
    rfl
  exact ⟨_, _, ran, rfl⟩

/-- The digits of a number and its sign are in ASCII. -/
theorem ascii_int (i : Int) : ∀ c ∈ (Json.Token.number (.ofInt i)).chars, c.toNat < 0x80 := by
  intro c inside
  rw [Scan.chars_ofInt] at inside
  rcases List.mem_append.1 inside with sign | digits
  · split at sign
    · rw [List.mem_singleton.1 sign]
      decide
    · cases sign
  · obtain ⟨n, digit, rfl⟩ := List.mem_map.1 digits
    have small := Json.lt_ten_of_mem_digits digit
    exact ascii_hexDigit n (by omega)

theorem unbroken_opening (id : Nat) : d.Unbroken (opening id) := by
  have before : d.Unbroken ['\x7b', '"', 'i', 'd', '"', ':'] := by
    cases d <;> simp [Unbroken, isBreak]
  have after : d.Unbroken [',', '"', 'c', 'o', 'd', 'e', '"', ':', '"'] := by
    cases d <;> simp [Unbroken, isBreak]
  have number : d.Unbroken (Json.Token.number (.ofNat id)).chars := by
    rw [← Json.Numeral.ofInt_natCast]
    exact unbroken_of_visible (visible_int id) fun c inside => survives_of_ascii (ascii_int id c inside)
  intro c inside
  unfold opening at inside
  rcases List.mem_append.1 inside with inside | inside
  · rcases List.mem_append.1 inside with inside | inside
    · exact before c inside
    · exact number c inside
  · exact after c inside

/-- The lines that the reader makes of a request, before whatever comes after it. -/
theorem linesFrom_request (d : Dialect) (r : Request) (more : List Char) :
    d.linesFrom [] (r.line.toList ++ more) =
      (d.piecesFrom (opening r.id) r.code.toList).map String.ofList ++ d.linesFrom [] more := by
  have written : r.line.toList ++ more = opening r.id ++
      (r.code.toList.flatMap escaped ++ '"' :: '\x7d' :: '\n' :: more) := by
    show (r.toJson.write ++ "\n").toList ++ more = _
    rw [String.toList_append, toList_write]
    simp
  rw [written, linesFrom_append (unbroken_opening r.id), List.append_nil, linesFrom_written]

theorem lines_utf8 (d : Dialect) (s : String) : d.lines (Text.utf8 s) = d.linesFrom [] s.toList := by
  unfold lines
  rw [Text.decodeLossy_utf8]

theorem lines_request (d : Dialect) (r : Request) :
    d.lines (Text.utf8 r.line) =
      (d.piecesFrom (opening r.id) r.code.toList).map String.ofList := by
  have whole := linesFrom_request d r []
  rw [List.append_nil] at whole
  rw [lines_utf8, whole, linesFrom, if_pos rfl, List.append_nil]

/-- Requests are read one after another. -/
theorem lines_requests (d : Dialect) (rs : List Request) :
    d.lines (rs.flatMap fun r => Text.utf8 r.line) =
      rs.flatMap fun r => d.lines (Text.utf8 r.line) := by
  rw [Text.flatMap_utf8, lines_utf8, String.toList_ofList]
  induction rs with
  | nil => rfl
  | cons r rs ih =>
    rw [List.flatMap_cons, linesFrom_request, ih, List.flatMap_cons, lines_request]

/-- A request without a separator in its code is read as one line. -/
theorem lines_of_intact {r : Request} (intact : d.Intact r.code) :
    d.lines (Text.utf8 r.line) = [r.toJson.write] := by
  rw [lines_request, piecesFrom_of_intact (intact_iff.1 intact), List.map_singleton, ← toList_write,
    String.ofList_toList]

theorem plain_toJson (r : Request) : r.toJson.Plain :=
  ⟨rfl, ⟨r.id, (Json.Numeral.ofInt_natCast r.id).symm⟩, rfl, rfl, trivial⟩

/-- A request has no white space at its ends. -/
theorem stripped_write (d : Dialect) (r : Request) : d.stripped r.toJson.write = r.toJson.write := by
  cases d with
  | javaScript => rfl
  | python =>
    have brace : Python.isSpace '\x7b' = false := by decide
    have close : Python.isSpace '\x7d' = false := by decide
    obtain ⟨middle, braces⟩ : ∃ cs, r.toJson.write.toList = '\x7b' :: cs ++ ['\x7d'] := by
      refine ⟨(opening r.id).tail ++ r.code.toList.flatMap escaped ++ ['"'], ?_⟩
      rw [toList_write]
      simp [opening]
    unfold stripped
    simp only
    rw [braces, List.cons_append, List.dropWhile_cons_of_neg (by simp [brace]), ← List.cons_append,
      List.reverse_append, List.reverse_singleton, List.singleton_append,
      List.dropWhile_cons_of_neg (by simp [close]), ← List.singleton_append, ← List.reverse_singleton,
      ← List.reverse_append, List.reverse_reverse, ← braces, String.ofList_toList]

/-- A request that is one line is taken as it is meant. -/
theorem taken_write (d : Dialect) (r : Request) :
    d.taken r.toJson.write = .order (some (.nat r.id)) (some (.text r.code)) := by
  unfold taken
  rw [stripped_write, Json.parse?_write (plain_toJson r)]
  cases d <;> rfl

/-- A line whose value has no member is answered under no number. -/
theorem id_taken_of_mute {line : List Char} (mute : Mute line) :
    (taken .javaScript (String.ofList line)).id = none := by
  have same : stripped .javaScript (String.ofList line) = String.ofList line := rfl
  unfold taken
  rw [same]
  cases parsed : Json.parse? (String.ofList line) with
  | none => rfl
  | some v =>
    cases v with
    | object ms =>
      rw [mute _ parsed ms rfl]
      rfl
    | _ => rfl

end Dialect

open Dialect in
/-- How requests come to the drivers. They are read one after another. A request is read as the one
line that it is exactly where the reader of the driver ends no line inside its code, and then it is
taken as it is meant; in every other case no line that the reader makes of it is answered under a
number. -/
theorem received_iff (d : Dialect) :
    (∀ rs : List Request, d.lines (rs.flatMap fun r => Text.utf8 r.line) =
      rs.flatMap fun r => d.lines (Text.utf8 r.line)) ∧
    ∀ r : Request, (d.lines (Text.utf8 r.line) = [r.toJson.write] ↔ d.Intact r.code) ∧
      d.taken r.toJson.write = .order (some (.nat r.id)) (some (.text r.code)) ∧
      ((∃ line ∈ d.lines (Text.utf8 r.line), (d.taken line).id.isSome = true) ↔ d.Intact r.code) := by
  refine ⟨lines_requests d, fun r => ⟨⟨?_, ?_⟩, taken_write d r, ⟨?_, ?_⟩⟩⟩
  · -- a torn request makes more lines than one
    intro one
    by_contra torn
    have several := one_lt_length_piecesFrom (not_intact_iff.1 torn) (opening r.id)
    rw [lines_request] at one
    have single := congrArg List.length one
    rw [List.length_map, List.length_singleton] at single
    omega
  · exact lines_of_intact
  · -- no line of a torn request has a number, and only JavaScript tears any
    rintro ⟨line, inside, answered⟩
    by_contra torn
    obtain rfl : d = .javaScript := by
      obtain ⟨c, -, separator⟩ := not_intact_iff.1 torn
      exact (survives_iff.1 separator).1
    rw [lines_request] at inside
    obtain ⟨cs, piece, rfl⟩ := List.mem_map.1 inside
    have mute := mute_piecesFrom (inString_opening r.id) (not_intact_iff.1 torn) cs piece
    rw [id_taken_of_mute mute] at answered
    cases answered
  · intro intact
    refine ⟨r.toJson.write, ?_, ?_⟩
    · rw [lines_of_intact intact]
      exact List.mem_singleton_self _
    · rw [taken_write]
      rfl

/-- A request that the reader of JavaScript makes two lines of. -/
example : Dialect.lines .javaScript (Text.utf8 (Request.line ⟨1, "a\u2028b"⟩)) =
    ["\x7b\"id\":1,\"code\":\"a", "b\"\x7d"] := by
  decide +kernel

end SnippetRunner.Driver
