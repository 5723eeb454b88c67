import Mathlib.Data.List.Induction
import SnippetRunner.Snippet.Transcript

/-!
# What a transcript keeps

Of everything that is written to a stream, its transcript holds the longest beginning that keeps to
both limits, and the stream counts as cut exactly when something is missing. That says at once what
writing line by line comes to: neither the division of the output into pieces nor what is written to
the other stream in between makes a difference. The invariant behind it says of what has been written
so far either that all of it is held, or which character it was that went beyond a limit.
-/

namespace SnippetRunner

variable {maxLines maxBytes : Nat}

/-! ## Lines -/

/-- Some characters end within a line: there is a last one, and it is no newline. -/
def endsMidLine (cs : List Char) : Bool := cs.getLast?.any (· != '\n')

/-- The lines that some characters make up: those that a newline ends, and a last one without. -/
def lineCount (cs : List Char) : Nat := cs.count '\n' + (endsMidLine cs).toNat

/-- A line, or a part of one: at most the last character is a newline. -/
structure IsLine (line : List Char) : Prop where
  ne_nil : line ≠ []
  unbroken : '\n' ∉ line.dropLast

@[simp] theorem endsMidLine_concat (cs : List Char) (c : Char) :
    endsMidLine (cs ++ [c]) = (c != '\n') := by
  simp [endsMidLine]

/-- One character more begins a line, unless it goes on with one. -/
theorem lineCount_concat (cs : List Char) (c : Char) :
    lineCount (cs ++ [c]) = if endsMidLine cs then lineCount cs else lineCount cs + 1 := by
  unfold lineCount
  rw [endsMidLine_concat, List.count_append]
  by_cases hc : c = '\n' <;> cases endsMidLine cs <;> simp [hc]

/-- More characters are no fewer lines. -/
theorem lineCount_le_append (cs ds : List Char) : lineCount cs ≤ lineCount (cs ++ ds) := by
  induction ds using List.reverseRecOn with
  | nil => simp
  | append_singleton ds d ih =>
    rw [← List.append_assoc, lineCount_concat]
    split
    · exact ih
    · exact Nat.le_succ_of_le ih

/-- A whole line counts as much as its first character. -/
theorem lineCount_append_of_isLine (cs : List Char) {line : List Char} (h : IsLine line) :
    lineCount (cs ++ line) = if endsMidLine cs then lineCount cs else lineCount cs + 1 := by
  obtain ⟨hne, hline⟩ := h
  induction line using List.reverseRecOn with
  | nil => exact absurd rfl hne
  | append_singleton p c ih =>
    rw [List.dropLast_concat] at hline
    rcases List.eq_nil_or_concat p with rfl | ⟨p', d, rfl⟩
    · exact lineCount_concat cs c
    · rw [List.concat_eq_append] at hline ih ⊢
      have hd : d ≠ '\n' := by
        intro same
        exact hline (by simp [same])
      have before : '\n' ∉ (p' ++ [d]).dropLast := fun hmem => hline (List.dropLast_subset _ hmem)
      have mid : endsMidLine (cs ++ (p' ++ [d])) = true := by
        rw [← List.append_assoc, endsMidLine_concat]
        simpa using hd
      rw [← List.append_assoc, lineCount_concat, if_pos mid]
      exact ih (by simp) before

/-! ## The limits -/

/-- A text keeps to both limits. -/
def Fits (maxLines maxBytes : Nat) (text : String) : Prop :=
  text.utf8ByteSize ≤ maxBytes ∧ lineCount text.toList ≤ maxLines

/-- A text is the longest one that keeps to both limits, of all with which the whole begins. Texts are
made of whole characters, so none of them ends within one. -/
structure IsLongest (maxLines maxBytes : Nat) (all text : String) : Prop where
  begins : ∃ rest, all = text ++ rest
  fits : Fits maxLines maxBytes text
  longest : ∀ other rest, all = other ++ rest → Fits maxLines maxBytes other →
    other.length ≤ text.length

/-- The beginning of a text that keeps to the limits keeps to them. -/
theorem Fits.of_append {p q : String} (h : Fits maxLines maxBytes (p ++ q)) :
    Fits maxLines maxBytes p := by
  obtain ⟨bytes, lines⟩ := h
  rw [String.utf8ByteSize_append] at bytes
  rw [String.toList_append] at lines
  exact ⟨by omega, Nat.le_trans (lineCount_le_append _ _) lines⟩

/-- Of two beginnings of a text the shorter one is a beginning of the longer one. -/
theorem exists_append_of_length_le {p q r r' : String} (h : p ++ r = q ++ r')
    (le : p.length ≤ q.length) : ∃ more, q = p ++ more := by
  have chars : p.toList ++ r.toList = q.toList ++ r'.toList := by
    rw [← String.toList_append, h, String.toList_append]
  have len : p.toList.length ≤ q.toList.length := by
    rwa [String.length_toList, String.length_toList]
  obtain ⟨more, hmore⟩ : p.toList <+: q.toList :=
    List.prefix_of_prefix_length_le ⟨_, chars⟩ (List.prefix_append _ _) len
  refine ⟨String.ofList more, ?_⟩
  rw [← String.toList_inj, String.toList_append, String.toList_ofList, hmore]

/-- There is only one longest beginning. -/
theorem IsLongest.unique {all p q : String} (hp : IsLongest maxLines maxBytes all p)
    (hq : IsLongest maxLines maxBytes all q) : p = q := by
  obtain ⟨r, hr⟩ := hp.begins
  obtain ⟨r', hr'⟩ := hq.begins
  have ge : q.length ≤ p.length := hp.longest q r' hr' hq.fits
  have le : p.length ≤ q.length := hq.longest p r hr hp.fits
  obtain ⟨more, rfl⟩ := exists_append_of_length_le (hr.symm.trans hr') le
  have none : more.length = 0 := by
    rw [String.length_append] at ge
    omega
  have empty : more = "" := String.length_eq_zero_iff.1 none
  rw [empty, String.append_empty]

/-- A beginning that keeps to the limits, and does not with one character more, is the longest. -/
theorem isLongest_of_beyond {text : String} {c : Char} (rest : String)
    (fits : Fits maxLines maxBytes text) (beyond : ¬Fits maxLines maxBytes (text.push c)) :
    IsLongest maxLines maxBytes (text.push c ++ rest) text := by
  refine ⟨⟨String.singleton c ++ rest, by rw [String.push_eq_append, String.append_assoc]⟩, fits, ?_⟩
  intro other rest' same hother
  by_contra longer
  have le : (text.push c).length ≤ other.length := by
    rw [String.length_push]
    omega
  obtain ⟨more, rfl⟩ := exists_append_of_length_le same le
  exact beyond hother.of_append

/-! ## Filling up -/

/-- Where there is no room for all characters, the text is filled up to the one that goes beyond. -/
theorem exists_fill (line : List Char) : ∀ (text : String) (room : Nat),
    room < (String.ofList line).utf8ByteSize →
      ∃ p c rest, line = p ++ c :: rest ∧ Held.fill text room line = text ++ String.ofList p ∧
        (String.ofList p).utf8ByteSize ≤ room ∧
        room < (String.ofList p).utf8ByteSize + c.utf8Size := by
  induction line with
  | nil =>
    intro text room exceeds
    simp at exceeds
  | cons d ds ih =>
    intro text room exceeds
    have split : String.ofList (d :: ds) = String.singleton d ++ String.ofList ds := by
      rw [← String.toList_inj]
      simp
    rw [split, String.utf8ByteSize_append, String.utf8ByteSize_singleton] at exceeds
    by_cases hd : d.utf8Size ≤ room
    · obtain ⟨p, c, rest, rfl, filled, le, lt⟩ := ih (text.push d) (room - d.utf8Size) (by omega)
      have longer : String.ofList (d :: p) = String.singleton d ++ String.ofList p := by
        rw [← String.toList_inj]
        simp
      refine ⟨d :: p, c, rest, rfl, ?_, ?_, ?_⟩
      · rw [Held.fill, if_pos hd, filled, longer, String.push_eq_append, String.append_assoc]
      · rw [longer, String.utf8ByteSize_append, String.utf8ByteSize_singleton]
        omega
      · rw [longer, String.utf8ByteSize_append, String.utf8ByteSize_singleton]
        omega
    · refine ⟨[], d, ds, rfl, ?_, ?_, ?_⟩
      · rw [Held.fill, if_neg hd]
        simp
      · simp
      · simpa using hd

/-! ## Writing -/

namespace Held

/-- What becomes of a line where all that was written before is held: it is dropped where there is no
line left for it, cut where there is no room for its bytes, and held otherwise. -/
theorem writeLine_cases {text : String} (fits : Fits maxLines maxBytes text) {line : List Char}
    (isLine : IsLine line) :
    let h := writeLine maxLines maxBytes
      ⟨text, lineCount text.toList, endsMidLine text.toList, false⟩ line
    let lines := lineCount (text.toList ++ line)
    (endsMidLine text.toList = false ∧ maxLines ≤ lineCount text.toList ∧
      h = ⟨text, lineCount text.toList, endsMidLine text.toList, true⟩) ∨
    (lines ≤ maxLines ∧ maxBytes - text.utf8ByteSize < (String.ofList line).utf8ByteSize ∧
      h = ⟨fill text (maxBytes - text.utf8ByteSize) line, lines, endsMidLine text.toList, true⟩) ∨
    (lines ≤ maxLines ∧ ¬maxBytes - text.utf8ByteSize < (String.ofList line).utf8ByteSize ∧
      h = ⟨text ++ String.ofList line, lines, line.getLast? != some '\n', false⟩) := by
  intro h lines
  have count := lineCount_append_of_isLine text.toList isLine
  unfold h writeLine
  simp only [Bool.false_eq_true, if_false]
  split
  next full =>
    simp only [Bool.and_eq_true, Bool.not_eq_true', decide_eq_true_eq] at full
    exact .inl ⟨full.1, full.2, rfl⟩
  next room =>
    have inLines : lines ≤ maxLines := by
      have held := fits.2
      unfold lines
      rw [count]
      simp only [Bool.and_eq_true, Bool.not_eq_true', decide_eq_true_eq, not_and] at room
      split
      · exact held
      next mid => exact Nat.not_le.1 (room (by simpa using mid))
    rw [← count]
    split
    next exceeds => exact .inr (.inl ⟨inLines, exceeds, rfl⟩)
    next room => exact .inr (.inr ⟨inLines, room, rfl⟩)

/-- What every line keeps of all that has been written and of what is held is kept when characters are
written line by line. -/
theorem writeLines_induction {P : String → Held → Prop}
    (line : ∀ all h line, P all h → IsLine line →
      P (all ++ String.ofList line) (h.writeLine maxLines maxBytes line))
    {all : String} {h : Held} (start : P all h) (begun cs : List Char) (unbroken : '\n' ∉ begun) :
    P (all ++ String.ofList (begun.reverse ++ cs)) (h.writeLines maxLines maxBytes begun cs) := by
  induction cs generalizing all h begun with
  | nil =>
    rw [writeLines, List.append_nil]
    cases begun with
    | nil => simpa using start
    | cons b bs =>
      apply line _ _ _ start
      refine ⟨by simp, fun broken => unbroken ?_⟩
      exact List.mem_reverse.1 (List.dropLast_subset _ broken)
  | cons c cs ih =>
    rw [writeLines]
    split
    next newline =>
      have isLine : IsLine (c :: begun).reverse := by
        rw [List.reverse_cons]
        exact ⟨by simp, by simpa using unbroken⟩
      have next := ih (line _ _ _ start isLine) [] (by simp)
      simpa [String.append_assoc, ← String.ofList_append] using next
    next other =>
      have next := ih start (c :: begun) (by simp [unbroken, Ne.symm other])
      simpa using next

/-- So it is when a piece of output is written. -/
theorem write_induction {P : String → Held → Prop}
    (line : ∀ all h line, P all h → IsLine line →
      P (all ++ String.ofList line) (h.writeLine maxLines maxBytes line))
    {all : String} {h : Held} (start : P all h) (text : String) :
    P (all ++ text) (h.write maxLines maxBytes text) := by
  have next := writeLines_induction line start [] text.toList (by simp)
  simpa [write] using next

end Held

/-- What is held of everything that has been written so far: all of it, with the lines counted, or
what came before the first character that went beyond a limit. -/
inductive Keeps (maxLines maxBytes : Nat) (all : String) (h : Held) : Prop where
  | whole (uncut : h.truncated = false) (text : h.text = all)
    (lines : h.lines = lineCount all.toList) (midLine : h.midLine = endsMidLine all.toList)
    (fits : Fits maxLines maxBytes all)
  | cut (c : Char) (rest : String) (cut : h.truncated = true) (begins : all = h.text.push c ++ rest)
    (fits : Fits maxLines maxBytes h.text) (beyond : ¬Fits maxLines maxBytes (h.text.push c))

namespace Keeps

variable {all : String} {h : Held}

theorem empty : Keeps maxLines maxBytes "" .empty :=
  .whole rfl rfl rfl rfl ⟨Nat.zero_le _, Nat.zero_le _⟩

/-- Once something has been dropped, so is everything. -/
theorem more (keeps : Keeps maxLines maxBytes all h) (cut : h.truncated = true) (text : String) :
    Keeps maxLines maxBytes (all ++ text) h := by
  cases keeps with
  | whole uncut _ _ _ _ =>
    rw [cut] at uncut
    cases uncut
  | cut c rest _ begins fits beyond =>
    exact .cut c (rest ++ text) cut (by rw [begins, String.append_assoc]) fits beyond

/-- A line for which there is no room is dropped. -/
theorem dropLine (fits : Fits maxLines maxBytes all) {line : List Char} (isLine : IsLine line)
    (mid : endsMidLine all.toList = false) (full : maxLines ≤ lineCount all.toList) (lines : Nat)
    (midLine : Bool) :
    Keeps maxLines maxBytes (all ++ String.ofList line) ⟨all, lines, midLine, true⟩ := by
  cases line with
  | nil => exact absurd rfl isLine.ne_nil
  | cons c cs =>
    refine .cut c (String.ofList cs) rfl ?_ fits ?_
    · rw [← String.toList_inj]
      simp
    · -- its first character would begin a line too many
      rintro ⟨-, lines'⟩
      rw [String.toList_push, lineCount_concat, mid] at lines'
      simp at lines'
      omega

/-- A line for whose bytes there is no room is cut to whole characters. -/
theorem cutLine (fits : Fits maxLines maxBytes all) {line : List Char} (isLine : IsLine line)
    (lines : lineCount (all.toList ++ line) ≤ maxLines)
    (exceeds : maxBytes - all.utf8ByteSize < (String.ofList line).utf8ByteSize) (count : Nat)
    (midLine : Bool) :
    Keeps maxLines maxBytes (all ++ String.ofList line)
      ⟨Held.fill all (maxBytes - all.utf8ByteSize) line, count, midLine, true⟩ := by
  obtain ⟨p, c, rest, rfl, filled, le, lt⟩ := exists_fill line all _ exceeds
  have bytes := fits.1
  rw [filled]
  refine .cut c (String.ofList rest) rfl ?_ ⟨?_, ?_⟩ ?_
  · rw [← String.toList_inj]
    simp
  · show (all ++ String.ofList p).utf8ByteSize ≤ maxBytes
    rw [String.utf8ByteSize_append]
    omega
  · show lineCount (all ++ String.ofList p).toList ≤ maxLines
    rw [String.toList_append, String.toList_ofList]
    have all' : all.toList ++ (p ++ c :: rest) = all.toList ++ p ++ (c :: rest) :=
      (List.append_assoc ..).symm
    rw [all'] at lines
    exact Nat.le_trans (lineCount_le_append _ _) lines
  · rintro ⟨bytes', -⟩
    have bytes' : ((all ++ String.ofList p).push c).utf8ByteSize ≤ maxBytes := bytes'
    rw [String.utf8ByteSize_push, String.utf8ByteSize_append] at bytes'
    omega

/-- A line for which there is room is held. -/
theorem addLine (fits : Fits maxLines maxBytes all) {line : List Char} (isLine : IsLine line)
    (lines : lineCount (all.toList ++ line) ≤ maxLines)
    (room : ¬maxBytes - all.utf8ByteSize < (String.ofList line).utf8ByteSize) :
    Keeps maxLines maxBytes (all ++ String.ofList line)
      ⟨all ++ String.ofList line, lineCount (all.toList ++ line), line.getLast? != some '\n',
        false⟩ := by
  have chars : (all ++ String.ofList line).toList = all.toList ++ line := by
    rw [String.toList_append, String.toList_ofList]
  have bytes := fits.1
  refine .whole rfl rfl (by rw [chars]) ?_ ⟨?_, by rwa [chars]⟩
  · obtain ⟨p, c, rfl⟩ := (List.eq_nil_or_concat line).resolve_left isLine.ne_nil
    rw [List.concat_eq_append] at chars ⊢
    rw [chars, ← List.append_assoc, endsMidLine_concat]
    simp [bne]
  · rw [String.utf8ByteSize_append]
    omega

/-- A line, or a part of one, is written. -/
theorem writeLine (keeps : Keeps maxLines maxBytes all h) {line : List Char} (isLine : IsLine line) :
    Keeps maxLines maxBytes (all ++ String.ofList line) (h.writeLine maxLines maxBytes line) := by
  obtain ⟨text, lines, midLine, truncated⟩ := h
  cases keeps with
  | cut c rest cut begins fits beyond =>
    cases cut
    exact more (.cut c rest rfl begins fits beyond) rfl _
  | whole uncut text' lines' midLine' fits =>
    simp only at uncut text' lines' midLine'
    subst uncut text' lines' midLine'
    rcases Held.writeLine_cases fits isLine with
      ⟨mid, full, dropped⟩ | ⟨inLines, exceeds, cut⟩ | ⟨inLines, room, added⟩
    · rw [dropped]
      exact dropLine fits isLine mid full _ _
    · rw [cut]
      exact cutLine fits isLine inLines exceeds _ _
    · rw [added]
      exact addLine fits isLine inLines room

/-- A piece of output is written. -/
theorem write (keeps : Keeps maxLines maxBytes all h) (text : String) :
    Keeps maxLines maxBytes (all ++ text) (h.write maxLines maxBytes text) := by
  apply Held.write_induction (P := Keeps maxLines maxBytes) _ keeps
  intro all h line held isLine
  exact held.writeLine isLine

/-- What is held is the longest beginning that keeps to the limits, and the stream is cut exactly
when that is not all. -/
theorem isLongest (keeps : Keeps maxLines maxBytes all h) :
    IsLongest maxLines maxBytes all h.text ∧ (h.truncated = true ↔ h.text ≠ all) := by
  cases keeps with
  | whole uncut text _ _ fits =>
    rw [text, uncut]
    refine ⟨⟨⟨"", by simp⟩, fits, ?_⟩, by simp⟩
    intro other rest same _
    rw [same, String.length_append]
    exact Nat.le_add_right _ _
  | cut c rest cut begins fits beyond =>
    have longest := isLongest_of_beyond rest fits beyond
    rw [← begins] at longest
    refine ⟨longest, iff_of_true cut ?_⟩
    intro same
    have longer := congrArg String.length begins
    rw [← same, String.length_append, String.length_push] at longer
    omega

end Keeps

/-! ## Transcripts -/

/-- Pieces of output are written, each to its stream. -/
def Transcript.writes (t : Transcript) (pieces : List (Channel × String)) : Transcript :=
  pieces.foldl (fun t piece => t.write piece.1 piece.2) t

/-- Everything that is written to a stream. -/
def written (c : Channel) (pieces : List (Channel × String)) : String :=
  String.join (pieces.filterMap fun piece => if piece.1 = c then some piece.2 else none)

theorem written_cons (c : Channel) (piece : Channel × String) (pieces : List (Channel × String)) :
    written c (piece :: pieces) = (if piece.1 = c then piece.2 else "") ++ written c pieces := by
  unfold written
  rw [List.filterMap_cons]
  by_cases h : piece.1 = c <;> simp [h]

namespace Transcript

/-- A piece is written to one stream, under the limits of the transcript. -/
theorem held_write (t : Transcript) (c d : Channel) (text : String) :
    (t.write d text).held c =
      if d = c then (t.held c).write t.maxLines t.maxBytes text else t.held c := by
  cases c <;> cases d <;> rfl

@[simp] theorem maxLines_write (t : Transcript) (d : Channel) (text : String) :
    (t.write d text).maxLines = t.maxLines := by
  cases d <;> rfl

@[simp] theorem maxBytes_write (t : Transcript) (d : Channel) (text : String) :
    (t.write d text).maxBytes = t.maxBytes := by
  cases d <;> rfl

/-- What every line keeps of all that has been written to a stream and of what the stream holds is
kept by pieces of output, whatever is written to the other stream in between. -/
theorem writes_induction {P : String → Held → Prop} (c : Channel)
    (pieces : List (Channel × String)) : ∀ (t : Transcript) (all : String),
      (∀ all h line, P all h → IsLine line →
        P (all ++ String.ofList line) (h.writeLine t.maxLines t.maxBytes line)) →
      P all (t.held c) → P (all ++ written c pieces) ((t.writes pieces).held c) := by
  induction pieces with
  | nil =>
    intro t all _ start
    simpa [written, writes] using start
  | cons piece pieces ih =>
    intro t all line start
    have first : P (all ++ if piece.1 = c then piece.2 else "") ((t.write piece.1 piece.2).held c) := by
      rw [held_write]
      split
      · exact Held.write_induction line start piece.2
      · simpa using start
    have rest := ih (t.write piece.1 piece.2) _ (by simpa using line) first
    rw [written_cons, ← String.append_assoc]
    exact rest

/-- Each stream keeps what is written to it, whatever is written to the other one in between. -/
theorem keeps_writes (c : Channel) (pieces : List (Channel × String)) :
    ∀ (t : Transcript) (all : String), Keeps t.maxLines t.maxBytes all (t.held c) →
      Keeps t.maxLines t.maxBytes (all ++ written c pieces) ((t.writes pieces).held c) := by
  intro t all keeps
  apply writes_induction (P := Keeps t.maxLines t.maxBytes) c pieces t all _ keeps
  intro all h line held isLine
  exact held.writeLine isLine

end Transcript

/-- What is kept of some pieces of output. -/
def Transcript.ofPieces (maxLines maxBytes : Nat) (pieces : List (Channel × String)) : Transcript :=
  (new maxLines maxBytes).writes pieces

/-- Each stream of a transcript holds the longest beginning of what was written to it that keeps to
both limits, and is cut exactly when that is not all; it is as if all of it had been written at once,
and to this stream alone. The output has both texts and says whether either stream was cut, and taking
the transcript apart gives the same. -/
theorem isLongest_ofPieces (maxLines maxBytes : Nat) (pieces : List (Channel × String)) :
    let t := Transcript.ofPieces maxLines maxBytes pieces
    (∀ c, IsLongest maxLines maxBytes (written c pieces) (t.held c).text ∧
      ((t.held c).truncated = true ↔ (t.held c).text ≠ written c pieces) ∧
      (t.held c).text = (Held.empty.write maxLines maxBytes (written c pieces)).text ∧
      (t.held c).truncated = (Held.empty.write maxLines maxBytes (written c pieces)).truncated) ∧
    t.output = ⟨(t.held .stdout).text, (t.held .stderr).text,
      (t.held .stdout).truncated || (t.held .stderr).truncated⟩ ∧
    t.close = t.output := by
  intro t
  refine ⟨fun c => ?_, rfl, rfl⟩
  have nothing : (Transcript.new maxLines maxBytes).held c = .empty := by cases c <;> rfl
  have keeps : Keeps maxLines maxBytes (written c pieces) (t.held c) := by
    have all := Transcript.keeps_writes c pieces (.new maxLines maxBytes) "" (nothing ▸ .empty)
    rwa [String.empty_append] at all
  have once : Keeps maxLines maxBytes (written c pieces)
      (Held.empty.write maxLines maxBytes (written c pieces)) := by
    have start : Keeps maxLines maxBytes "" .empty := .empty
    have all := start.write (written c pieces)
    rwa [String.empty_append] at all
  obtain ⟨longest, cut⟩ := keeps.isLongest
  obtain ⟨longest', cut'⟩ := once.isLongest
  -- there is only one longest beginning, and whether it is all does not depend on the way there
  have text := longest.unique longest'
  refine ⟨longest, cut, text, ?_⟩
  rw [Bool.eq_iff_iff, cut, cut', text]

/-- A character of which only the first bytes have room is left out, and with it everything behind. -/
example : (Transcript.ofPieces 100 5 [(.stderr, "aaaé€"), (.stderr, "more")]).output =
    ⟨"", "aaaé", true⟩ := by
  decide

end SnippetRunner
