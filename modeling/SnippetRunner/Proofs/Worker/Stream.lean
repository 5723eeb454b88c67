import SnippetRunner.Proofs.Json.Scanning
import SnippetRunner.Proofs.Worker.Lines

/-!
# The events of a stream

What the reader of events hands over of everything that a worker writes to it. Line by line it hands
over the events that the lines carry and skips those that carry none, be they blank, no JSON or no
event. A line that is too long or no text is another matter: nothing behind it is read, so that an
event which stands there never arrives.
-/

namespace SnippetRunner.Worker

/-- A blank line carries no event. -/
theorem decode?_of_allBlank {s : String} (blank : Text.allBlank s = true) :
    Wire.Event.decode? s = none := by
  have noValue : Json.parseKept? s = none := by
    unfold Json.parseKept?
    rcases Json.Scan.tokens?_of_allBlank blank with nothing | refused
    · rw [nothing]
      rfl
    · rw [refused]
      rfl
  unfold Wire.Event.decode?
  rw [noValue]
  rfl

namespace EventReader

/-! ## Lines -/

/-- The lines of a stream: what the newlines end, and what stands after the last one, be it nothing. -/
def lines (bs : List UInt8) : List (List UInt8) := bs.splitOn 0x0A

/-- A line without the carriage return at its end. -/
def stripped (line : List UInt8) : List UInt8 :=
  if line.getLast? = some 0x0D then line.dropLast else line

/-- The text of a line, if it is one. -/
def text? (line : List UInt8) : Option String := Text.decode? (stripped line)

/-- The event that a line carries, if it carries one. -/
def carried? (line : List UInt8) : Option Wire.Event := (text? line).bind Wire.Event.decode?

/-- A line is text, whether it carries an event or not. -/
def isText (line : List UInt8) : Bool := (text? line).isSome

/-- The reader gets over a line. -/
def isReadable (line : List UInt8) : Bool := line.length ≤ maxLine && isText line

/-- The events that are handed over of a stream, until it ends. -/
def passed (bs : List UInt8) : List Wire.Event := (start.feed bs).close.take.1

variable {line bs : List UInt8} {size : Nat} {events : List Wire.Event}

/-- The reader keeps the last byte of a line first. -/
theorem reverse_dropReturn (line : List UInt8) : (dropReturn line).reverse = stripped line.reverse := by
  unfold stripped
  rw [List.getLast?_reverse]
  cases line with
  | nil => rfl
  | cons b line =>
    by_cases same : b = 0x0D
    · rw [same, if_pos (by rfl), List.reverse_cons, List.dropLast_concat]
      rfl
    · rw [if_neg (by simpa using same)]
      unfold dropReturn
      split
      next is => exact absurd (List.cons.inj is).1 same
      next => rfl

/-- A line that is text ends with the event that it carries, or with nothing. -/
theorem endLine_of_some {s : String} (text : text? line.reverse = some s) :
    endLine ⟨line, size, none, events⟩ = after events (carried? line.reverse) := by
  unfold endLine carried?
  unfold text? at text ⊢
  simp only
  rw [reverse_dropReturn, text]
  by_cases blank : Text.allBlank s = true
  · simp only [blank, if_true, Option.bind_some, decode?_of_allBlank blank]
    rfl
  · simp only [blank]
    rw [Option.bind_some]
    cases Wire.Event.decode? s <;> rfl

/-- The reader stops at a line that is no text. -/
theorem endLine_of_none (noText : text? line.reverse = none) :
    endLine ⟨line, size, none, events⟩ = ⟨[], 0, some .unreadable, events⟩ := by
  unfold endLine
  unfold text? at noText
  simp only
  rw [reverse_dropReturn, noText]

/-- Nothing is read after the reader has stopped. -/
theorem close_feed_of_halted {h : Halt} (bs : List UInt8) :
    ((feed ⟨line, size, some h, events⟩ bs).close).events = events := by
  induction bs with
  | nil => rfl
  | cons b bs ih => exact ih

/-! ## Streams -/

/-- The events of the lines before the first one at which the reader stops. -/
def reached (ls : List (List UInt8)) : List Wire.Event := (ls.takeWhile isReadable).filterMap carried?

variable {ls : List (List UInt8)}

theorem reached_cons_of_readable (readable : isReadable line = true) :
    reached (line :: ls) = (carried? line).toList ++ reached ls := by
  unfold reached
  rw [List.takeWhile_cons_of_pos readable, List.filterMap_cons]
  cases carried? line <;> rfl

theorem reached_cons_of_not_readable (stops : isReadable line = false) :
    reached (line :: ls) = [] := by
  unfold reached
  rw [List.takeWhile_cons_of_neg (by simp [stops])]
  rfl

/-- At the end of a line that has room the reader goes on with its event, or has stopped. -/
theorem endLine_cases (room : line.length ≤ maxLine) :
    (isReadable line.reverse = true ∧
      endLine ⟨line, size, none, events⟩ = atStart ((carried? line.reverse).toList ++ events)) ∨
    (isReadable line.reverse = false ∧
      endLine ⟨line, size, none, events⟩ = ⟨[], 0, some .unreadable, events⟩) := by
  unfold isReadable isText
  rw [List.length_reverse, decide_eq_true room, Bool.true_and]
  cases text : text? line.reverse with
  | none => exact .inr ⟨rfl, endLine_of_none text⟩
  | some s =>
    refine .inl ⟨rfl, (endLine_of_some text).trans ?_⟩
    cases carried? line.reverse <;> rfl

/-- What remains of a stream at its end is a line as any other: where the reader leaves it out, it is
nothing or a carriage return, and carries no event. -/
theorem events_close (room : line.length ≤ maxLine) :
    (close ⟨line, line.length, none, events⟩).events = (reached [line.reverse]).reverse ++ events := by
  unfold close
  by_cases bare : line = [] ∨ line = [0x0D]
  · have nothing : reached [line.reverse] = [] := by
      rcases bare with is | is <;> rw [is] <;> decide
    rw [if_pos (Or.inr bare), nothing]
    rfl
  · rw [if_neg (by simpa using bare)]
    obtain ⟨readable, ended⟩ | ⟨stops, ended⟩ := endLine_cases room
    · rw [ended, reached_cons_of_readable readable]
      cases carried? line.reverse <;> rfl
    · rw [ended, reached_cons_of_not_readable stops]
      rfl

/-- From within a line the reader hands over the events that are carried by this line, with what is
still to come of it, and by the lines behind it. -/
theorem events_close_feed (room : line.length ≤ maxLine) :
    ((feed ⟨line, line.length, none, events⟩ bs).close).events =
      (reached ((lines bs).modifyHead (line.reverse ++ ·))).reverse ++ events := by
  induction bs generalizing line events with
  | nil =>
    show (close ⟨line, line.length, none, events⟩).events =
      (reached [line.reverse ++ []]).reverse ++ events
    rw [List.append_nil]
    exact events_close room
  | cons b bs ih =>
    show ((feed (push ⟨line, line.length, none, events⟩ b) bs).close).events = _
    unfold lines
    rw [List.splitOn_cons_eq_if_modifyHead]
    by_cases newline : b = 0x0A
    · rw [if_pos (by simpa using newline), List.modifyHead_cons, List.append_nil]
      have ends : push ⟨line, line.length, none, events⟩ b = endLine ⟨line, line.length, none, events⟩ := by
        rw [newline]
        rfl
      obtain ⟨readable, ended⟩ | ⟨stops, ended⟩ := endLine_cases room
      · have next := @ih [] ((carried? line.reverse).toList ++ events) (Nat.zero_le _)
        have whole : (lines bs).modifyHead (([] : List UInt8).reverse ++ ·) = lines bs := by
          cases lines bs <;> rfl
        rw [whole] at next
        rw [ends, ended, reached_cons_of_readable readable]
        refine next.trans ?_
        rw [List.reverse_append, List.append_assoc]
        cases carried? line.reverse <;> rfl
      · rw [ends, ended, close_feed_of_halted, reached_cons_of_not_readable stops]
        rfl
    · rw [if_neg (by simpa using newline), List.modifyHead_modifyHead]
      by_cases full : maxLine ≤ line.length
      · -- whatever is still to come of it, the line is too long
        obtain ⟨first, later, split⟩ := List.exists_cons_of_ne_nil (List.splitOn_ne_nil 0x0A bs)
        have tooLong : isReadable (line.reverse ++ b :: first) = false := by
          unfold isReadable
          rw [decide_eq_false (by simp; omega), Bool.false_and]
        rw [push_of_full newline full, feed_gaveUp, split]
        show _ = (reached ((line.reverse ++ b :: first) :: later)).reverse ++ events
        rw [reached_cons_of_not_readable tooLong]
        rfl
      · rw [push_of_room newline full]
        have next := @ih (b :: line) events (by rw [List.length_cons]; omega)
        have grown : ∀ rest : List UInt8, (b :: line).reverse ++ rest = line.reverse ++ (b :: rest) := by
          intro rest
          rw [List.reverse_cons, List.append_assoc]
          rfl
        rw [funext grown] at next
        exact next

/-- What is handed over of a stream is what the lines carry before the reader stops. -/
theorem passed_eq (bs : List UInt8) : passed bs = reached (lines bs) := by
  have read := @events_close_feed [] bs [] (Nat.zero_le _)
  have whole : (lines bs).modifyHead (([] : List UInt8).reverse ++ ·) = lines bs := by
    cases lines bs <;> rfl
  rw [whole, List.append_nil] at read
  show ((start.feed bs).close).events.reverse = _
  rw [show (start.feed bs).close.events = (reached (lines bs)).reverse from read, List.reverse_reverse]

/-- A line that is no text carries no event. -/
theorem carried?_of_not_isText (noText : isText line = false) : carried? line = none := by
  have nothing : text? line = none := Option.isNone_iff_eq_none.1 (Option.isSome_eq_false_iff.1 noText)
  unfold carried?
  rw [nothing]
  rfl

/-- Lines that are short enough are read while they are text. -/
theorem takeWhile_isReadable (short : ∀ line ∈ ls, line.length ≤ maxLine) :
    ls.takeWhile isReadable = ls.takeWhile isText := by
  induction ls with
  | nil => rfl
  | cons line ls ih =>
    have same : isReadable line = isText line := by
      unfold isReadable
      rw [decide_eq_true (short line (List.mem_cons_self ..)), Bool.true_and]
    rw [List.takeWhile_cons, List.takeWhile_cons, same,
      ih fun line mem => short line (List.mem_cons_of_mem _ mem)]

/-- Nothing is missed of some lines where no event stands behind a line that is no text. -/
theorem filterMap_takeWhile_isText_iff (ls : List (List UInt8)) :
    (ls.takeWhile isText).filterMap carried? = ls.filterMap carried? ↔
      ls.Pairwise fun line later => isText line = true ∨ carried? later = none := by
  induction ls with
  | nil => exact iff_of_true rfl List.Pairwise.nil
  | cons line ls ih =>
    rw [List.pairwise_cons]
    cases text : isText line with
    | true =>
      rw [List.takeWhile_cons_of_pos text, List.filterMap_cons, List.filterMap_cons, ← ih]
      cases carried? line <;> simp
    | false =>
      rw [List.takeWhile_cons_of_neg (by simp [text]), List.filterMap_cons_none (carried?_of_not_isText text),
        List.filterMap_nil, eq_comm, List.filterMap_eq_nil_iff]
      constructor
      · intro none
        exact ⟨fun l mem => .inr (none l mem),
          List.pairwise_of_forall_mem_list fun _ _ l mem => .inr (none l mem)⟩
      · intro both l mem
        exact (both.1 l mem).resolve_left Bool.false_ne_true

/-- Of a stream whose lines are short enough the reader hands over, in order, every event before the
first line that is no text, whatever other lines stand among them. It hands over every event that the
stream carries if and only if none stands behind such a line. -/
theorem passed_of_short (bs : List UInt8) (short : ∀ line ∈ lines bs, line.length ≤ maxLine) :
    passed bs = ((lines bs).takeWhile isText).filterMap carried? ∧
      (passed bs = (lines bs).filterMap carried? ↔
        (lines bs).Pairwise fun line later => isText line = true ∨ carried? later = none) := by
  have before : passed bs = ((lines bs).takeWhile isText).filterMap carried? := by
    rw [passed_eq]
    unfold reached
    rw [takeWhile_isReadable short]
  refine ⟨before, ?_⟩
  rw [before]
  exact filterMap_takeWhile_isText_iff (lines bs)

/-- The reader gets over a line that is no JSON, and stops at the byte `FF`: the event behind it is
missed. -/
theorem passed_of_short_broken :
    let bs := Text.utf8 "junk\n[\"done\", 1]\n" ++ [0xFF, 0x0A] ++ Text.utf8 "[\"done\", 2]\n"
    (∀ line ∈ lines bs, line.length ≤ maxLine) ∧ passed bs = [.done 1 none] ∧
      (lines bs).filterMap carried? = [.done 1 none, .done 2 none] := by
  intro bs
  have short : ∀ line ∈ lines bs, line.length ≤ maxLine := by decide +kernel
  refine ⟨short, (passed_of_short bs short).1.trans ?_, ?_⟩
  · decide +kernel
  · decide +kernel

end EventReader

end SnippetRunner.Worker
