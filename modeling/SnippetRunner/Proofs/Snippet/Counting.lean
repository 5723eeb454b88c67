import SnippetRunner.Proofs.Snippet.Longest

/-!
# How many lines a stream counts

A stream counts a line when the line begins, before it is known whether there is room for any byte of
it. So the number is that of the lines with the first character that did not get in, as far as
lines are allowed, and one more than the lines that are held exactly where this character was to begin
a line and was refused for its bytes.
-/

namespace SnippetRunner

variable {maxLines maxBytes : Nat} {all : String} {h : Held}

/-- The stream was cut where a line was to begin for which there was room, but not for the bytes of
its first character. -/
def CutAtLineStart (maxLines maxBytes : Nat) (all text : String) : Prop :=
  ∃ (c : Char) (rest : String), all = text.push c ++ rest ∧ endsMidLine text.toList = false ∧
    lineCount text.toList < maxLines ∧ maxBytes < text.utf8ByteSize + c.utf8Size

/-- The lines that are counted when something has been dropped: those with the first character that
did not get in, as far as lines are allowed. -/
def Counts (maxLines : Nat) (all : String) (h : Held) : Prop :=
  h.truncated = true → ∃ (c : Char) (rest : String), all = h.text.push c ++ rest ∧
    h.lines = min maxLines (lineCount (h.text.push c).toList)

namespace Counts

/-- Once something has been dropped, nothing is counted any more. -/
theorem more (counts : Counts maxLines all h) (cut : h.truncated = true) (text : String) :
    Counts maxLines (all ++ text) h := by
  intro _
  obtain ⟨c, rest, begins, lines⟩ := counts cut
  refine ⟨c, rest ++ text, ?_, lines⟩
  rw [begins, String.append_assoc]

/-- A line for which there is no room is not counted: the lines are as many as allowed already. -/
theorem dropLine (fits : Fits maxLines maxBytes all) {line : List Char} (isLine : IsLine line)
    (mid : endsMidLine all.toList = false) (full : maxLines ≤ lineCount all.toList)
    (midLine : Bool) :
    Counts maxLines (all ++ String.ofList line) ⟨all, lineCount all.toList, midLine, true⟩ := by
  intro _
  cases line with
  | nil => exact absurd rfl isLine.ne_nil
  | cons c cs =>
    refine ⟨c, String.ofList cs, ?_, ?_⟩
    · rw [← String.toList_inj]
      simp
    · have inLines := fits.2
      show lineCount all.toList = min maxLines (lineCount (all.push c).toList)
      rw [String.toList_push, lineCount_concat, mid]
      simp only [Bool.false_eq_true, if_false]
      omega

/-- A line that is cut is counted, also if nothing of it gets in: it has been counted with its first
character, and all the rest of it counts for nothing. -/
theorem cutLine {line : List Char} (isLine : IsLine line)
    (inLines : lineCount (all.toList ++ line) ≤ maxLines)
    (exceeds : maxBytes - all.utf8ByteSize < (String.ofList line).utf8ByteSize) (midLine : Bool) :
    Counts maxLines (all ++ String.ofList line)
      ⟨Held.fill all (maxBytes - all.utf8ByteSize) line, lineCount (all.toList ++ line), midLine,
        true⟩ := by
  intro _
  obtain ⟨p, c, rest, rfl, filled, -, -⟩ := exists_fill line all _ exceeds
  refine ⟨c, String.ofList rest, ?_, ?_⟩
  · rw [filled, ← String.toList_inj]
    simp
  · have chars : ((all ++ String.ofList p).push c).toList = all.toList ++ (p ++ [c]) := by
      simp
    -- what has got in of the line is a part of a line too, with the character after it
    have isPart : IsLine (p ++ [c]) := by
      refine ⟨by simp, ?_⟩
      rw [List.dropLast_concat]
      intro broken
      apply isLine.unbroken
      rw [List.dropLast_append_cons]
      exact List.mem_append_left _ broken
    show lineCount (all.toList ++ (p ++ c :: rest)) = _
    rw [filled, chars, lineCount_append_of_isLine _ isPart]
    rw [lineCount_append_of_isLine _ isLine] at inLines ⊢
    omega

/-- A line, or a part of one, is written. -/
theorem writeLine (keeps : Keeps maxLines maxBytes all h) (counts : Counts maxLines all h)
    {line : List Char} (isLine : IsLine line) :
    Counts maxLines (all ++ String.ofList line) (h.writeLine maxLines maxBytes line) := by
  obtain ⟨text, lines, midLine, truncated⟩ := h
  cases keeps with
  | cut c rest cut begins fits beyond =>
    cases cut
    exact counts.more rfl _
  | whole uncut text' lines' midLine' fits =>
    simp only at uncut text' lines' midLine'
    subst uncut text' lines' midLine'
    rcases Held.writeLine_cases fits isLine with
      ⟨mid, full, dropped⟩ | ⟨inLines, exceeds, cut⟩ | ⟨-, -, added⟩
    · rw [dropped]
      exact dropLine fits isLine mid full _
    · rw [cut]
      exact cutLine isLine inLines exceeds _
    · rw [added]
      intro cut
      cases cut

end Counts

/-- A stream of a transcript keeps and counts what is written to it. -/
theorem counts_ofPieces (maxLines maxBytes : Nat) (pieces : List (Channel × String)) (c : Channel) :
    Keeps maxLines maxBytes (written c pieces)
      ((Transcript.ofPieces maxLines maxBytes pieces).held c) ∧
    Counts maxLines (written c pieces) ((Transcript.ofPieces maxLines maxBytes pieces).held c) := by
  have start : Keeps maxLines maxBytes "" ((Transcript.new maxLines maxBytes).held c) ∧
      Counts maxLines "" ((Transcript.new maxLines maxBytes).held c) := by
    have nothing : (Transcript.new maxLines maxBytes).held c = .empty := by cases c <;> rfl
    rw [nothing]
    refine ⟨.empty, ?_⟩
    intro cut
    cases cut
  have all := Transcript.writes_induction
    (P := fun all h => Keeps maxLines maxBytes all h ∧ Counts maxLines all h)
    c pieces (.new maxLines maxBytes) "" ?_ start
  · rwa [String.empty_append] at all
  · intro all h line both isLine
    exact ⟨both.1.writeLine isLine, both.2.writeLine both.1 isLine⟩

/-- A stream counts the lines that it holds if and only if it was not cut at the start of a line, for
want of bytes while there was room for the line; otherwise it counts one line more. -/
theorem lines_eq_lineCount_iff (maxLines maxBytes : Nat) (pieces : List (Channel × String))
    (channel : Channel) :
    let h := (Transcript.ofPieces maxLines maxBytes pieces).held channel
    (h.lines = lineCount h.text.toList ↔
      ¬CutAtLineStart maxLines maxBytes (written channel pieces) h.text) ∧
    (CutAtLineStart maxLines maxBytes (written channel pieces) h.text →
      h.lines = lineCount h.text.toList + 1) := by
  intro h
  obtain ⟨keeps, counts⟩ := counts_ofPieces maxLines maxBytes pieces channel
  cases keeps with
  | whole uncut text lines _ _ =>
    have notCut : ¬CutAtLineStart maxLines maxBytes (written channel pieces) h.text := by
      rintro ⟨c, rest, begins, -⟩
      -- nothing is missing of what was written
      have longer := congrArg String.length begins
      rw [text, String.length_append, String.length_push] at longer
      omega
    refine ⟨iff_of_true ?_ notCut, fun cut => absurd cut notCut⟩
    rw [text]
    exact lines
  | cut c rest cut begins fits beyond =>
    obtain ⟨c', rest', begins', lines⟩ := counts cut
    -- there is only one first character that is missing
    obtain rfl : c = c' := by
      have chars := congrArg String.toList (begins.symm.trans begins')
      rw [String.toList_append, String.toList_append, String.toList_push, String.toList_push,
        List.append_assoc, List.append_assoc] at chars
      exact (List.cons.inj (List.append_cancel_left chars)).1
    have lines : h.lines = min maxLines (lineCount (h.text.push c).toList) := lines
    have fits : Fits maxLines maxBytes h.text := fits
    have beyond : ¬Fits maxLines maxBytes (h.text.push c) := beyond
    have inLines := fits.2
    have more := lineCount_concat h.text.toList c
    rw [← String.toList_push] at more
    cases mid : endsMidLine h.text.toList with
    | true =>
      -- the line had begun before
      have notCut : ¬CutAtLineStart maxLines maxBytes (written channel pieces) h.text := by
        rintro ⟨-, -, -, start, -⟩
        rw [mid] at start
        cases start
      rw [mid, if_pos rfl] at more
      refine ⟨iff_of_true ?_ notCut, fun cut => absurd cut notCut⟩
      omega
    | false =>
      rw [mid, if_neg (by simp)] at more
      by_cases full : lineCount h.text.toList < maxLines
      · -- a line may begin, so it is the bytes that go beyond
        have bytes : maxBytes < h.text.utf8ByteSize + c.utf8Size := by
          rw [← String.utf8ByteSize_push]
          apply Nat.not_le.1
          intro room
          exact beyond ⟨room, by omega⟩
        have isCut : CutAtLineStart maxLines maxBytes (written channel pieces) h.text :=
          ⟨c, rest, begins, mid, full, bytes⟩
        have counted : h.lines = lineCount h.text.toList + 1 := by omega
        exact ⟨iff_of_false (by omega) (not_not_intro isCut), fun _ => counted⟩
      · have notCut : ¬CutAtLineStart maxLines maxBytes (written channel pieces) h.text := by
          rintro ⟨-, -, -, -, room, -⟩
          exact full room
        refine ⟨iff_of_true ?_ notCut, fun cut => absurd cut notCut⟩
        omega

/-- The third byte ends the first line. Nothing of the second one is held, and it is counted. -/
example : (Transcript.ofPieces 10 3 [(.stdout, "ab\n"), (.stdout, "c")]).out =
    ⟨"ab\n", 2, false, true⟩ := by
  decide

end SnippetRunner
