import Mathlib.Data.List.TakeWhile
import SnippetRunner.Proofs.Worker.Stream
import SnippetRunner.Worker.Framing

/-!
# Chunks and lines

However the bytes of a worker are cut into chunks, and wherever a splitter goes on with its search, the
reader of lines comes to what the reader of single bytes comes to. What that is the lines of the stream
say: all events up to the first line at which reading stops, and the worker is killed if that line is too
long. A line may have as many bytes as a line may have, with its carriage return and without its
newline, and not one more.
-/

namespace SnippetRunner.Worker

/-! ## Line by line -/

namespace EventReader

variable {line rest bs : List UInt8} {events : List Wire.Event}

/-- A stream is a line without an end, or a line and a newline before a stream. -/
@[elab_as_elim]
theorem lines_induction {motive : List UInt8 → Prop} (bs : List UInt8)
    (last : ∀ line, 0x0A ∉ line → motive line)
    (cons : ∀ line rest, 0x0A ∉ line → motive rest → motive (line ++ 0x0A :: rest)) : motive bs := by
  induction size : bs.length using Nat.strongRecOn generalizing bs with
  | ind n ih =>
    by_cases inside : 0x0A ∈ bs
    · obtain ⟨line, rest, rfl, absent⟩ := List.eq_append_cons_of_mem inside
      refine cons line rest absent (ih rest.length ?_ rest rfl)
      rw [← size, List.length_append, List.length_cons]
      omega
    · exact last bs inside

theorem lines_of_not_mem (inside : 0x0A ∉ line) : lines line = [line] :=
  List.splitOn_eq_singleton inside

theorem lines_append (inside : 0x0A ∉ line) (rest : List UInt8) :
    lines (line ++ 0x0A :: rest) = line :: lines rest :=
  List.splitOn_append_cons_self_of_not_mem inside rest

theorem feed_append (r : EventReader) (bs cs : List UInt8) : r.feed (bs ++ cs) = (r.feed bs).feed cs :=
  List.foldl_append

/-- Nothing is read after the reader has stopped. -/
theorem feed_of_halted {r : EventReader} {h : Halt} (stopped : r.halt = some h) (bs : List UInt8) :
    r.feed bs = r := by
  obtain ⟨line, size, halt, events⟩ := r
  obtain rfl : halt = some h := stopped
  induction bs with
  | nil => rfl
  | cons b bs ih => exact ih

/-- A line without an end that has room is kept. -/
theorem feed_unended (inside : 0x0A ∉ line) (room : line.length ≤ maxLine) :
    (atStart events).feed line = ⟨line.reverse, line.length, none, events⟩ := by
  have kept : (atStart events).feed line = ⟨line.reverse ++ [], 0 + line.length, none, events⟩ :=
    feed_of_fits (fun b mem is => inside (is ▸ mem)) (by omega)
  rw [kept, List.append_nil, Nat.zero_add]

/-- There is no reading on from a line that is too long, whatever stands behind it. -/
theorem feed_overlong (inside : 0x0A ∉ line) (large : maxLine < line.length) (rest : List UInt8) :
    (atStart events).feed (line ++ rest) = gaveUp events := by
  have gave : (atStart events).feed line = gaveUp events :=
    feed_of_oversized (fun b mem is => inside (is ▸ mem)) (Nat.zero_le _) (by omega)
  rw [feed_append, gave, feed_gaveUp]

/-- A line that has room, with its newline. -/
theorem feed_ended (inside : 0x0A ∉ line) (room : line.length ≤ maxLine) (rest : List UInt8) :
    (atStart events).feed (line ++ 0x0A :: rest) =
      (endLine ⟨line.reverse, line.length, none, events⟩).feed rest := by
  rw [feed_append, feed_unended inside room]
  rfl

theorem isReadable_of_overlong (large : maxLine < line.length) : isReadable line = false := by
  unfold isReadable
  rw [decide_eq_false (Nat.not_le.2 large), Bool.false_and]

/-- Behind a line and its newline the reader goes on with the event of the line, or it has stopped for
one reason or the other. -/
theorem feed_line_cases (inside : 0x0A ∉ line) (rest : List UInt8) :
    (isReadable line = true ∧ (atStart events).feed (line ++ 0x0A :: rest) =
      (atStart ((carried? line).toList ++ events)).feed rest) ∨
    (isReadable line = false ∧ ∃ h,
      (atStart events).feed (line ++ 0x0A :: rest) = ⟨[], 0, some h, events⟩ ∧
      (h = .oversized ↔ maxLine < line.length)) := by
  by_cases room : line.length ≤ maxLine
  · rw [feed_ended inside room]
    have cases := @endLine_cases line.reverse line.reverse.length events (by rwa [List.length_reverse])
    rw [List.reverse_reverse, List.length_reverse] at cases
    obtain ⟨readable, ended⟩ | ⟨stops, ended⟩ := cases
    · exact .inl ⟨readable, by rw [ended]⟩
    · refine .inr ⟨stops, .unreadable, ?_, iff_of_false (by decide) (Nat.not_lt.2 room)⟩
      rw [ended, feed_of_halted rfl]
  · have large : maxLine < line.length := Nat.not_le.1 room
    refine .inr ⟨isReadable_of_overlong large, .oversized, ?_, iff_of_true rfl large⟩
    exact feed_overlong inside large _

/-- As long as the pipe may go on, the events of the lines that have ended have been read. -/
theorem events_feed (bs : List UInt8) (events : List Wire.Event) :
    ((atStart events).feed bs).events = (reached (lines bs).dropLast).reverse ++ events := by
  induction bs using lines_induction generalizing events with
  | last line inside =>
    rw [lines_of_not_mem inside]
    show _ = events
    by_cases room : line.length ≤ maxLine
    · rw [feed_unended inside room]
    · have gave := @feed_overlong line events inside (Nat.not_le.1 room) []
      rw [List.append_nil] at gave
      rw [gave]
      rfl
  | cons line rest inside ih =>
    have more : lines rest ≠ [] := List.splitOn_ne_nil 0x0A rest
    rw [lines_append inside, List.dropLast_cons_of_ne_nil more]
    obtain ⟨readable, read⟩ | ⟨stops, h, read, -⟩ := @feed_line_cases line events inside rest
    · rw [read, ih, reached_cons_of_readable readable, List.reverse_append, List.append_assoc]
      cases carried? line <;> rfl
    · rw [read, reached_cons_of_not_readable stops]
      rfl

/-- The first line at which the reader stops. -/
def stop? (ls : List (List UInt8)) : Option (List UInt8) := ls.find? fun line => !isReadable line

/-- The reader has given up if and only if the line at which it stops is too long. Whether this line has
ended does not matter. -/
theorem halt_feed_iff (bs : List UInt8) (events : List Wire.Event) :
    ((atStart events).feed bs).halt = some .oversized ↔
      ∃ line, stop? (lines bs) = some line ∧ maxLine < line.length := by
  unfold stop?
  induction bs using lines_induction generalizing events with
  | last line inside =>
    rw [lines_of_not_mem inside]
    by_cases room : line.length ≤ maxLine
    · rw [feed_unended inside room]
      refine iff_of_false nofun ?_
      rintro ⟨l, found, large⟩
      obtain rfl := List.mem_singleton.1 (List.mem_of_find?_eq_some found)
      exact Nat.not_lt.2 room large
    · have large : maxLine < line.length := Nat.not_le.1 room
      have gave := @feed_overlong line events inside large []
      rw [List.append_nil] at gave
      rw [gave]
      refine iff_of_true rfl ⟨line, ?_, large⟩
      rw [List.find?_cons_of_pos (by rw [isReadable_of_overlong large]; rfl)]
  | cons line rest inside ih =>
    rw [lines_append inside]
    obtain ⟨readable, read⟩ | ⟨stops, h, read, overlong⟩ := @feed_line_cases line events inside rest
    · rw [read, ih, List.find?_cons_of_neg (by rw [readable]; decide)]
    · rw [read, List.find?_cons_of_pos (by rw [stops]; rfl)]
      show some h = some .oversized ↔ _
      rw [Option.some.injEq, overlong]
      constructor
      · exact fun large => ⟨line, rfl, large⟩
      · rintro ⟨l, is, large⟩
        rwa [Option.some.inj is]

/-- A line that has ended is no reason to give up. -/
theorem halt_endLine_ne (r : EventReader) : r.endLine.halt ≠ some .oversized := by
  unfold endLine
  cases Text.decode? (dropReturn r.line).reverse with
  | none => exact nofun
  | some text =>
    by_cases blank : Text.allBlank text = true
    · simp only [blank]
      exact nofun
    · simp only [blank]
      cases Wire.Event.decode? text <;> exact nofun

/-- Nor is the end of the pipe. -/
theorem halt_close_iff (r : EventReader) : r.close.halt = some .oversized ↔ r.halt = some .oversized := by
  unfold close
  split
  next => rfl
  next goes =>
    have going : r.halt = none := Option.not_isSome_iff_eq_none.1 fun stopped => goes (.inl stopped)
    rw [going]
    exact iff_of_false r.halt_endLine_ne nofun

theorem text?_eq (line : List UInt8) : text? line = lineText? line := by
  unfold text? lineText?
  rw [reverse_dropReturn, List.reverse_reverse]

end EventReader

open EventReader (lines lines_induction lines_append isReadable carried? reached atStart gaveUp
  feed_unended feed_ended feed_overlong feed_append feed_of_halted endLine_of_some endLine_of_none text?_eq)

/-! ## One reader follows the other -/

namespace LineReader

variable {σ : Type} {x : Splitter σ} {searched : σ → List UInt8 → Prop} {s : σ}
  {line rest front buffer : List UInt8} {events : List Wire.Event}

/-- The event of a line is noted as at the end of the line. -/
theorem note_eq {text : String} (found : lineText? line = some text) :
    note events text = (carried? line).toList ++ events := by
  rw [← text?_eq] at found
  unfold note carried?
  rw [found, Option.bind_some]
  by_cases blank : Text.allBlank text = true
  · rw [if_pos blank, decode?_of_allBlank blank]
    rfl
  · rw [if_neg blank]
    cases Wire.Event.decode? text <;> rfl

section Drain

variable {ask : σ → (buffer : List UInt8) → Found σ buffer}

theorem drain_of_nothing {s' : σ} (found : ask s buffer = .nothing s') :
    drain ask s buffer events = ⟨s', buffer, none, events⟩ := by
  unfold drain
  rw [found]

theorem drain_of_failure {h : Halt} (found : ask s buffer = .failure h) :
    drain ask s buffer events = ⟨s, buffer, some h, events⟩ := by
  unfold drain
  rw [found]

/-- A line that has been found comes to the same for both readers: they go on with its event behind it,
or they stop at it. -/
theorem drain_of_gives (size : Nat) (gives : Splitter.Gives searched line rest (ask s buffer)) :
    (∃ state, searched state [] ∧
      drain ask s buffer events = drain ask state rest ((carried? line).toList ++ events) ∧
      EventReader.endLine ⟨line.reverse, size, none, events⟩ =
        atStart ((carried? line).toList ++ events)) ∨
    (drain ask s buffer events = ⟨s, buffer, some .unreadable, events⟩ ∧
      EventReader.endLine ⟨line.reverse, size, none, events⟩ = ⟨[], 0, some .unreadable, events⟩) := by
  have text : EventReader.text? line.reverse.reverse = lineText? line := by
    rw [List.reverse_reverse, text?_eq]
  unfold Splitter.Gives at gives
  cases found : lineText? line with
  | none =>
    rw [found] at gives text
    exact .inr ⟨drain_of_failure gives, endLine_of_none text⟩
  | some t =>
    rw [found] at gives text
    obtain ⟨state, shorter, gave, fresh⟩ := gives
    refine .inl ⟨state, fresh, ?_, (endLine_of_some text).trans ?_⟩
    · rw [drain, gave, ← note_eq found]
    · rw [List.reverse_reverse]
      cases carried? line <;> rfl

end Drain

/-- The reader of lines has come as far as the reader of single bytes: where both go on, what waits is
the line that has not ended, and the splitter has searched it. -/
structure Follows (searched : σ → List UInt8 → Prop) (r : LineReader σ) (e : EventReader) : Prop where
  halt : r.halt = e.halt
  events : r.events = e.events
  waits : e.halt = none → searched r.state r.buffer ∧ 0x0A ∉ r.buffer ∧ r.buffer.length ≤ maxLine ∧
    e = (atStart e.events).feed r.buffer

/-- Where both have stopped there is nothing more to follow. -/
theorem Follows.of_stopped {h : Halt} {size : Nat} :
    Follows searched ⟨s, buffer, some h, events⟩ ⟨line, size, some h, events⟩ :=
  ⟨rfl, rfl, nofun⟩

/-- Both have begun a line. -/
theorem Follows.of_waiting (done : searched s buffer) (inside : 0x0A ∉ buffer)
    (room : buffer.length ≤ maxLine) :
    Follows searched ⟨s, buffer, none, events⟩ ((atStart events).feed buffer) := by
  rw [feed_unended inside room]
  exact ⟨rfl, rfl, fun _ => ⟨done, inside, room, (feed_unended inside room).symm⟩⟩

theorem Follows.outcome {r : LineReader σ} {e : EventReader} (follows : Follows searched r e) :
    r.outcome = e.outcome := by
  unfold LineReader.outcome EventReader.outcome
  rw [follows.halt, follows.events]

section Following

variable (lawful : x.Lawful searched)
include lawful

/-- All that waits is taken line by line, with the front of the buffer searched before. -/
theorem follows_drain (buffer : List UInt8) (done : searched s front) (before : front <+: buffer)
    (events : List Wire.Event) :
    Follows searched (drain x.next s buffer events) ((atStart events).feed buffer) := by
  -- only the first line can have been searched in part, so the front is empty from the second one on
  induction buffer using lines_induction generalizing s front events with
  | last line inside =>
    by_cases room : line.length ≤ maxLine
    · obtain ⟨s', nothing, done⟩ := lawful.waiting done before inside room
      rw [drain_of_nothing nothing]
      exact .of_waiting done inside room
    · have large : maxLine < line.length := Nat.not_le.1 room
      rw [← List.append_nil line] at before ⊢
      rw [drain_of_failure (lawful.oversized done before inside large), feed_overlong inside large]
      exact .of_stopped
  | cons line rest inside ih =>
    by_cases room : line.length ≤ maxLine
    · rw [feed_ended inside room]
      obtain ⟨state, fresh, drained, ended⟩ | ⟨drained, ended⟩ :=
        drain_of_gives line.length (lawful.line done before inside room)
      · rw [drained, ended]
        exact ih fresh List.nil_prefix _
      · rw [drained, ended, feed_of_halted rfl]
        exact .of_stopped
    · have large : maxLine < line.length := Nat.not_le.1 room
      rw [drain_of_failure (lawful.oversized done before inside large), feed_overlong inside large]
      exact .of_stopped

/-- A chunk more. -/
theorem Follows.arrive {r : LineReader σ} {e : EventReader} (follows : Follows searched r e)
    (chunk : List UInt8) : Follows searched (r.arrive x chunk) (e.feed chunk) := by
  unfold LineReader.arrive
  cases stopped : e.halt with
  | some h =>
    rw [feed_of_halted stopped, if_pos (by rw [follows.halt, stopped]; rfl)]
    exact follows
  | none =>
    obtain ⟨done, inside, room, read⟩ := follows.waits stopped
    rw [if_neg (by rw [follows.halt, stopped]; decide), read, ← feed_append, follows.events]
    exact follows_drain lawful _ done (List.prefix_append ..) _

/-- Chunks one after the other. -/
theorem follows_run (chunks : List (List UInt8)) :
    Follows searched (run x chunks) (EventReader.start.feed chunks.flatten) := by
  unfold run
  induction chunks using List.reverseRecOn with
  | nil => exact .of_waiting lawful.start (List.not_mem_nil) (Nat.zero_le _)
  | append_singleton chunks chunk ih =>
    rw [List.foldl_append, List.flatten_append, List.flatten_singleton, feed_append]
    exact ih.arrive lawful chunk

/-- At the end of the pipe both make a line of what waits, unless it is nothing or a carriage return. -/
theorem Follows.outcome_finish {r : LineReader σ} {e : EventReader} (follows : Follows searched r e) :
    (r.finish x).outcome = e.close.outcome := by
  unfold LineReader.finish EventReader.close
  cases stopped : e.halt with
  | some h =>
    rw [if_pos (by rw [follows.halt, stopped]; rfl), if_pos (.inl rfl), follows.outcome]
    unfold EventReader.outcome
    rw [stopped]
  | none =>
    obtain ⟨done, inside, room, read⟩ := follows.waits stopped
    rw [if_neg (by rw [follows.halt, stopped]; decide), read, feed_unended inside room, follows.events]
    have bare : (none : Option Halt).isSome = true ∨ r.buffer.reverse = [] ∨
        r.buffer.reverse = [0x0D] ↔ r.buffer = [] ∨ r.buffer = [0x0D] := by
      simp [List.reverse_eq_iff]
    by_cases rest : r.buffer = [] ∨ r.buffer = [0x0D]
    · obtain ⟨s', nothing⟩ := lawful.ended done List.prefix_rfl rest
      rw [if_pos (bare.2 rest), drain_of_nothing nothing]
      rfl
    · rw [if_neg (mt bare.1 rest)]
      obtain ⟨state, fresh, drained, ended⟩ | ⟨drained, ended⟩ :=
        drain_of_gives r.buffer.length (lawful.unended done List.prefix_rfl inside room rest)
      · -- nothing waits behind the last line
        obtain ⟨s', nothing⟩ := lawful.ended fresh List.prefix_rfl (.inl rfl)
        rw [drained, ended, drain_of_nothing nothing]
        rfl
      · rw [drained, ended]
        rfl

end Following

end LineReader

/-! ## The splitter that searches from an offset -/

namespace Splitter

variable {offset : Nat} {line rest front buffer : List UInt8}

/-- The front of the buffer has been searched up to the offset. -/
def Searched (offset : Nat) (front : List UInt8) : Prop :=
  offset ≤ front.length ∧ 0x0A ∉ front.take offset

theorem gives_found (shorter : rest.length < buffer.length) :
    Gives Searched line rest (@found buffer line rest shorter) := by
  unfold Gives found
  cases lineText? line with
  | none => rfl
  | some text => exact ⟨0, shorter, rfl, Nat.le_refl 0, List.not_mem_nil⟩

/-- What has been searched of the bytes before a newline does not go beyond it. -/
theorem Searched.le_length (done : Searched offset front) (before : front <+: line ++ 0x0A :: rest) :
    offset ≤ line.length := by
  by_contra far
  obtain ⟨more, whole⟩ := before
  have within : line.length < front.length := Nat.lt_of_lt_of_le (Nat.not_le.1 far) done.1
  have newline : front[line.length]? = some 0x0A := by
    rw [← List.getElem?_append_left within, whole, List.getElem?_append_right (Nat.le_refl _),
      Nat.sub_self, List.getElem?_cons_zero]
  have searched : (front.take offset)[line.length]? = some 0x0A :=
    (List.getElem?_take_of_lt (Nat.not_le.1 far)).trans newline
  exact done.2 (List.mem_of_getElem? searched)

/-- No newline is found in bytes that hold none. -/
theorem findIdx?_newline (absent : 0x0A ∉ buffer) : buffer.findIdx? (· == 0x0A) = none :=
  List.findIdx?_eq_none_iff.2 fun _ mem => beq_false_of_ne fun is => absent (is ▸ mem)

/-- Where no newline stands within reach, none is found. -/
theorem newline?_eq_none (absent : 0x0A ∉ buffer.take (maxLine + 1)) : newline? offset buffer = none := by
  unfold newline?
  rw [findIdx?_newline fun mem => absent (List.mem_of_mem_drop mem)]
  rfl

/-- The newline behind a line that has room is found, as what has been searched is part of the line. -/
theorem newline?_append (done : Searched offset front) (before : front <+: line ++ 0x0A :: rest)
    (inside : 0x0A ∉ line) (room : line.length ≤ maxLine) :
    newline? offset (line ++ 0x0A :: rest) = some line.length := by
  have small : offset ≤ line.length := done.le_length before
  have reach : (line ++ 0x0A :: rest).take (maxLine + 1) =
      line ++ 0x0A :: rest.take (maxLine - line.length) := by
    rw [List.take_append, List.take_of_length_le (by omega), Nat.sub_add_comm room, List.take_succ_cons]
  unfold newline?
  rw [reach, List.drop_append_of_le_length small, List.findIdx?_append,
    findIdx?_newline fun mem => inside (List.mem_of_mem_drop mem), Option.none_or, List.findIdx?_cons,
    if_pos (by rfl), Option.map_some, Option.map_some, List.length_drop]
  exact congrArg some (by omega)

theorem gives_search {i : Nat} (at_ : newline? offset buffer = some i) :
    Gives Searched (buffer.take i) (buffer.drop (i + 1)) (search offset buffer) := by
  unfold search
  split
  next j found =>
    obtain rfl : i = j := Option.some.inj (at_.symm.trans found)
    exact gives_found _
  next absent =>
    rw [absent] at at_
    exact nomatch at_

theorem search_of_none (at_ : newline? offset buffer = none) :
    search offset buffer =
      if maxLine < buffer.length then .failure .oversized
      else .nothing (min (maxLine + 1) buffer.length) := by
  unfold search
  split
  next found =>
    rw [found] at at_
    exact nomatch at_
  next => rfl

/-- Without a newline, and with room, all has been searched. -/
theorem search_of_waiting (inside : 0x0A ∉ buffer) (room : buffer.length ≤ maxLine) (offset : Nat) :
    search offset buffer = .nothing buffer.length := by
  have all : min (maxLine + 1) buffer.length = buffer.length := by omega
  rw [search_of_none (newline?_eq_none fun mem => inside (List.mem_of_mem_take mem)),
    if_neg (Nat.not_lt.2 room), all]

/-- The search from an offset is all that a reader of lines relies on. -/
theorem lawful_searching : searching.Lawful Searched where
  start := ⟨Nat.le_refl 0, List.not_mem_nil⟩
  line {s front line rest} done before inside room := by
    have gives := gives_search (newline?_append done before inside room)
    rwa [List.take_left, List.drop_length_add_append, List.drop_succ_cons, List.drop_zero] at gives
  oversized {s front line rest} done before inside large := by
    have reach : (line ++ rest).take (maxLine + 1) = line.take (maxLine + 1) :=
      List.take_append_of_le_length large
    have absent : newline? s (line ++ rest) = none := by
      refine newline?_eq_none fun mem => inside ?_
      rw [reach] at mem
      exact List.mem_of_mem_take mem
    refine (search_of_none absent).trans (if_pos ?_)
    rw [List.length_append]
    omega
  waiting {s front buffer} done before inside room := by
    refine ⟨buffer.length, search_of_waiting inside room s, Nat.le_refl _, ?_⟩
    rwa [List.take_length]
  ended {s front buffer} done before bare := by
    have inside : 0x0A ∉ buffer := by rcases bare with rfl | rfl <;> decide
    have room : buffer.length ≤ maxLine := by rcases bare with rfl | rfl <;> decide
    refine ⟨0, ?_⟩
    show searchLast s buffer = _
    unfold searchLast
    rw [search_of_waiting inside room]
    exact dif_pos bare
  unended {s front buffer} done before inside room rest := by
    show Gives Searched buffer [] (searchLast s buffer)
    unfold searchLast
    rw [search_of_waiting inside room]
    simp only [rest, dite_false]
    exact gives_found _

end Splitter

/-! ## Streams in chunks -/

open LineReader (run finish follows_run)

/-- The reader gets as far as a line: it gets over all lines before it. -/
def Reaches (ls before : List (List UInt8)) (line : List UInt8) : Prop :=
  (∀ l ∈ before, isReadable l = true) ∧ ∃ later, ls = before ++ line :: later

/-- What is to come of a stream of which some lines have ended. -/
structure Outcome.Exact (ls ended : List (List UInt8)) (o : Outcome) : Prop where
  /-- The events of the lines that have ended, up to the first line at which reading stops. -/
  events : o.events = (ended.takeWhile isReadable).filterMap carried?
  /-- The worker is killed for a line that is reached and is too long, and for nothing else. -/
  killed : o.killed = true ↔ ∃ before line, Reaches ls before line ∧ maxLine < line.length
  /-- All events before that line have been read, and none behind it. -/
  before : ∀ before line, Reaches ls before line → maxLine < line.length →
    o.events = before.filterMap carried?

/-- The line at which reading stops is too long if and only if such a line is reached. -/
theorem stop?_iff (ls : List (List UInt8)) :
    (∃ line, EventReader.stop? ls = some line ∧ maxLine < line.length) ↔
      ∃ before line, Reaches ls before line ∧ maxLine < line.length := by
  unfold EventReader.stop? Reaches
  constructor
  · rintro ⟨line, stops, large⟩
    obtain ⟨-, before, later, rfl, readable⟩ := List.find?_eq_some_iff_append.1 stops
    exact ⟨before, line, ⟨fun l mem => by simpa using readable l mem, later, rfl⟩, large⟩
  · rintro ⟨before, line, ⟨readable, later, rfl⟩, large⟩
    refine ⟨line, List.find?_eq_some_iff_append.2 ⟨?_, before, later, rfl, ?_⟩, large⟩
    · rw [EventReader.isReadable_of_overlong large]
      rfl
    · intro l mem
      rw [readable l mem]
      decide

/-- What is read of lines up to one that is too long: it does not matter whether it has ended. -/
theorem reached_of_reaches {ls before : List (List UInt8)} {line : List UInt8}
    (reaches : Reaches ls before line) (large : maxLine < line.length) :
    reached ls.dropLast = before.filterMap carried? ∧ reached ls = before.filterMap carried? := by
  obtain ⟨readable, later, rfl⟩ := reaches
  have stops : isReadable line = false := EventReader.isReadable_of_overlong large
  have read : ∀ later, (before ++ line :: later).takeWhile isReadable = before := by
    intro later
    rw [List.takeWhile_append_of_pos readable, List.takeWhile_cons_of_neg (by simp [stops]),
      List.append_nil]
  unfold reached
  refine ⟨?_, by rw [read]⟩
  cases later with
  | nil => rw [List.dropLast_concat, List.takeWhile_eq_self_iff.2 readable]
  | cons next later =>
    rw [List.dropLast_append_cons, List.dropLast_cons_of_ne_nil (List.cons_ne_nil next later), read]

/-- What the reader of single bytes has come to, as long as the pipe may go on. -/
theorem exact_feed (bs : List UInt8) :
    Outcome.Exact (lines bs) (lines bs).dropLast (EventReader.start.feed bs).outcome := by
  have events : (EventReader.start.feed bs).outcome.events = reached (lines bs).dropLast := by
    show (EventReader.feed (atStart []) bs).events.reverse = _
    rw [EventReader.events_feed, List.append_nil, List.reverse_reverse]
  refine ⟨events, ?_, fun before line reaches large => events.trans (reached_of_reaches reaches large).1⟩
  exact decide_eq_true_iff.trans ((EventReader.halt_feed_iff bs []).trans (stop?_iff _))

/-- And when it has ended. -/
theorem exact_close (bs : List UInt8) :
    Outcome.Exact (lines bs) (lines bs) (EventReader.start.feed bs).close.outcome := by
  have events : (EventReader.start.feed bs).close.outcome.events = reached (lines bs) :=
    EventReader.passed_eq bs
  refine ⟨events, ?_, fun before line reaches large => events.trans (reached_of_reaches reaches large).2⟩
  have same := EventReader.halt_close_iff (EventReader.start.feed bs)
  exact decide_eq_true_iff.trans (same.trans ((EventReader.halt_feed_iff bs []).trans (stop?_iff _)))

/-- What comes of a stream does not depend on the chunks in which it arrives, be it that it has ended
or that it may go on. The worker is killed if and only if a line is reached that is too long, with its
carriage return and without its newline, whether it has ended or not; all events before it have been
read, and none behind it. So it is with the reader of single bytes too. -/
theorem outcome_of_chunks {σ : Type} {x : Splitter σ} {searched : σ → List UInt8 → Prop}
    (lawful : x.Lawful searched) (chunks : List (List UInt8)) :
    let ls := lines chunks.flatten
    let r := run x chunks
    Outcome.Exact ls ls.dropLast r.outcome ∧ Outcome.Exact ls ls (r.finish x).outcome ∧
    (∀ others : List (List UInt8), others.flatten = chunks.flatten →
      (run x others).outcome = r.outcome ∧ ((run x others).finish x).outcome = (r.finish x).outcome) ∧
    r.outcome = (EventReader.start.feed chunks.flatten).outcome ∧
    (r.finish x).outcome = (EventReader.start.feed chunks.flatten).close.outcome := by
  intro ls r
  have during : ∀ others, (run x others).outcome = (EventReader.start.feed others.flatten).outcome :=
    fun others => (follows_run lawful others).outcome
  have ended : ∀ others, ((run x others).finish x).outcome =
      (EventReader.start.feed others.flatten).close.outcome :=
    fun others => (follows_run lawful others).outcome_finish lawful
  refine ⟨?_, ?_, fun others same => ?_, during chunks, ended chunks⟩
  · rw [during chunks]
    exact exact_feed _
  · rw [ended chunks]
    exact exact_close _
  · rw [during others, during chunks, ended others, ended chunks, same]
    exact ⟨rfl, rfl⟩

/-- A line has as many bytes as it may have and a carriage return besides, and its newline arrives in the
next chunk: the event before it is read, and the worker is killed. -/
theorem outcome_of_chunks_return :
    let chunks := [Text.utf8 "[\"done\", 1]\n", List.replicate maxLine 0x20 ++ [0x0D],
      0x0A :: Text.utf8 "[\"done\", 2]\n"]
    Splitter.searching.Lawful Splitter.Searched ∧
      (run .searching chunks).outcome = ⟨[.done 1 none], true⟩ ∧
      ((run .searching chunks).finish .searching).outcome = ⟨[.done 1 none], true⟩ := by
  intro chunks
  have large : maxLine < (List.replicate maxLine 0x20 ++ [(0x0D : UInt8)]).length := by
    rw [List.length_append, List.length_replicate]
    exact Nat.lt_succ_self _
  have reaches : Reaches (lines chunks.flatten) [Text.utf8 "[\"done\", 1]"]
      (List.replicate maxLine 0x20 ++ [0x0D]) := by
    have whole : chunks.flatten = Text.utf8 "[\"done\", 1]" ++ 0x0A ::
        ((List.replicate maxLine 0x20 ++ [0x0D]) ++ 0x0A :: Text.utf8 "[\"done\", 2]\n") := by
      simp only [chunks, List.flatten_cons, List.flatten_nil, List.append_nil]
      rw [show Text.utf8 "[\"done\", 1]\n" = Text.utf8 "[\"done\", 1]" ++ [0x0A] by decide +kernel,
        List.append_assoc]
      rfl
    refine ⟨by decide +kernel, lines (Text.utf8 "[\"done\", 2]\n"), ?_⟩
    rw [whole, lines_append (by decide +kernel), lines_append (by simp)]
    rfl
  have carried : [Text.utf8 "[\"done\", 1]"].filterMap carried? = [.done 1 none] := by decide +kernel
  obtain ⟨during, ended, -⟩ := outcome_of_chunks Splitter.lawful_searching chunks
  have result : ∀ {o : Outcome}, o.events = [.done 1 none] → o.killed = true →
      o = ⟨[.done 1 none], true⟩ := by
    rintro ⟨events, killed⟩ rfl rfl
    rfl
  exact ⟨Splitter.lawful_searching,
    result ((during.before _ _ reaches large).trans carried) (during.killed.2 ⟨_, _, reaches, large⟩),
    result ((ended.before _ _ reaches large).trans carried) (ended.killed.2 ⟨_, _, reaches, large⟩)⟩

end SnippetRunner.Worker
