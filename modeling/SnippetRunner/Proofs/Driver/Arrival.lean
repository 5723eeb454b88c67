import SnippetRunner.Proofs.Driver.Pieces
import SnippetRunner.Proofs.Worker.Lines
import SnippetRunner.Worker.Session

/-!
# What arrives from the drivers

Whatever a driver sends, the host reads a line of it as the event that was meant, or drops the line for
a string in it that is no text, or gives the worker up for a line that is too long. Output is sent in
short lines, so only its strings matter; a report on an exception can fail in all these ways, and then
the execution goes on until its time is up.
-/

namespace SnippetRunner.Driver

open SnippetRunner.Wire (Event RawFault)
open SnippetRunner.Worker (Execution maxLine)
open SnippetRunner.Worker.EventReader (atStart gaveUp after feed)

variable {d : Dialect} {events : List Event} {id : UInt64} {report : Option (Report d.Str)}

/-! ## Reports -/

/-- Every string of the report is a text, and every number has room in its field. -/
structure Report.IsSound (r : Report d.Str) : Prop where
  message : d.IsText r.message
  kind : ∀ k ∈ r.kind, d.IsText k
  line : ∀ i ∈ r.line, HasRoom i
  column : ∀ i ∈ r.column, HasRoom i

/-- A report that is sound is one that says something. -/
theorem Report.isSound_iff {r : Report d.Str} : r.IsSound ↔ ∃ raw, r.Says raw := by
  constructor
  · rintro ⟨⟨message, text⟩, kind, line, column⟩
    have name : ∃ t : Option String, r.kind.map d.text? = t.map some := by
      cases given : r.kind with
      | none => exact ⟨none, rfl⟩
      | some k =>
        obtain ⟨t, units⟩ := kind k given
        exact ⟨some t, congrArg some (Dialect.text?_eq_some_iff.2 units)⟩
    obtain ⟨name, named⟩ := name
    exact ⟨⟨message, name, r.line, r.column⟩, Dialect.text?_eq_some_iff.2 text, named, rfl, rfl,
      line, column⟩
  · rintro ⟨raw, told⟩
    refine ⟨⟨raw.message, Dialect.text?_eq_some_iff.1 told.message⟩, fun k given => ?_,
      told.line ▸ told.lineFits, told.column ▸ told.columnFits⟩
    have named := told.kind
    rw [given] at named
    cases kind : raw.kind with
    | none => simp [kind] at named
    | some t =>
      rw [kind] at named
      exact ⟨t, Dialect.text?_eq_some_iff.1 (Option.some.inj named)⟩

/-- A done request is one that is reported on soundly, or not at all. -/
theorem exists_saysOf_iff : (∃ fault, SaysOf report fault) ↔ ∀ r ∈ report, r.IsSound := by
  cases report with
  | none => exact ⟨fun _ r h => absurd h (by simp), fun _ => ⟨none, trivial⟩⟩
  | some r =>
    constructor
    · rintro ⟨fault, told⟩ _ ⟨⟩
      cases fault with
      | none => exact told.elim
      | some raw => exact Report.isSound_iff.2 ⟨raw, told⟩
    · intro sound
      obtain ⟨raw, told⟩ := Report.isSound_iff.1 (sound r rfl)
      exact ⟨some raw, told⟩

/-- Of two strings of which the second stands in for an empty first one, both are texts if the one
that is taken and the second are. -/
theorem isText_standIn {α : Type} {s t : List α} {P : List α → Prop} [DecidableEq α] (empty : P []) :
    P (if s = [] then t else s) ∧ P t ↔ P s ∧ P t := by
  split
  next none_ => rw [none_, and_iff_right empty, and_self]
  next => rfl

/-- In Python a report on an exception is sound as far as its text and the name of its type are texts,
and its position has room. -/
theorem Python.isSound_describe_error {text name : Str} {line column : Option Int} :
    Report.IsSound (d := .python) (describe (.error text name line column)) ↔
      (Dialect.IsText .python text ∧ Dialect.IsText .python name) ∧
        (∀ i ∈ line, HasRoom i) ∧ ∀ i ∈ column, HasRoom i := by
  rw [← isText_standIn (P := Dialect.IsText .python) ⟨"", rfl⟩]
  constructor
  · rintro ⟨message, kind, line, column⟩
    exact ⟨⟨message, kind name rfl⟩, line, column⟩
  · rintro ⟨⟨message, kind⟩, line, column⟩
    exact ⟨message, fun k h => Option.some.inj h ▸ kind, line, column⟩

/-- In JavaScript one on an error is, as far as its message and its name are. -/
theorem JavaScript.isSound_describe_error {message name : Str} {line column : Option Int} :
    Report.IsSound (d := .javaScript) (describe (.error message name line column)) ↔
      (Dialect.IsText .javaScript message ∧ Dialect.IsText .javaScript name) ∧
        (∀ i ∈ line, HasRoom i) ∧ ∀ i ∈ column, HasRoom i := by
  rw [← isText_standIn (P := Dialect.IsText .javaScript) ⟨"", rfl⟩]
  have named : (∀ k ∈ (if name = [] then none else some name), Dialect.IsText .javaScript k) ↔
      Dialect.IsText .javaScript name := by
    by_cases none_ : name = []
    · rw [if_pos none_, none_]
      exact ⟨fun _ => ⟨"", rfl⟩, fun _ k h => absurd h (by simp)⟩
    · rw [if_neg none_]
      exact ⟨fun all => all name rfl, fun text k h => Option.some.inj h ▸ text⟩
  constructor
  · rintro ⟨message, kind, line, column⟩
    exact ⟨⟨message, named.1 kind⟩, line, column⟩
  · rintro ⟨⟨message, kind⟩, line, column⟩
    exact ⟨message, named.2 kind, line, column⟩

/-! ## Lines -/

/-- One event arrives as its line is read. -/
theorem feed_sent (events : List Event) (ms : List (String × Datum d.Str)) :
    (atStart events).feed (d.sent (.object ms)) =
      if (Text.utf8 (d.line (.object ms))).length ≤ maxLine
      then after events (Event.decode? (d.line (.object ms))) else gaveUp events :=
  Worker.EventReader.feed_line (le_of_mem_utf8_line (.object ms)) (allBlank_line ms)

/-- The reader hands over the event that the request is done, and every execution of the request ends
with it. -/
def Ends (d : Dialect) (events : List Event) (id : UInt64) (report : Option (Report d.Str)) : Prop :=
  ∃ fault, (atStart events).feed (d.sent (d.done id report)) =
      atStart (.done id.toNat fault :: events) ∧
    ∀ e : Execution, e.id = id.toNat →
      (e.receive (.event (.done id.toNat fault))).2 = some (fault.map RawFault.fault)

/-- An event has been handed over only if the line carries it. -/
theorem eq_some_of_after {carried : Option Event} {event : Event}
    (h : after events carried = atStart (event :: events)) : carried = some event := by
  cases carried with
  | none =>
    have same : events = event :: events := congrArg Worker.EventReader.events h
    exact absurd (congrArg List.length same) (by simp)
  | some e =>
    have same : e :: events = event :: events := congrArg Worker.EventReader.events h
    rw [(List.cons.inj same).1]

/-- The event that a request is done ends the execution exactly where the report on it is sound and
the line is not too long. -/
theorem ends_iff : Ends d events id report ↔
    (∀ r ∈ report, r.IsSound) ∧ (Text.utf8 (d.line (d.done id report))).length ≤ maxLine := by
  have arrives : (atStart events).feed (d.sent (d.done id report)) = _ := feed_sent events _
  constructor
  · rintro ⟨fault, read, -⟩
    rw [arrives] at read
    split at read
    next short =>
      obtain ⟨fault, told, -⟩ := decode?_done.1 (eq_some_of_after read)
      exact ⟨exists_saysOf_iff.1 ⟨fault, told⟩, short⟩
    next => cases read
  · rintro ⟨sound, short⟩
    obtain ⟨fault, told⟩ := exists_saysOf_iff.2 sound
    have decoded : Event.decode? (d.line (d.done id report)) = some (.done id.toNat fault) :=
      decode?_done.2 ⟨fault, told, rfl⟩
    refine ⟨fault, ?_, fun e same => ?_⟩
    · rw [arrives]
      refine (if_pos short).trans ?_
      show after events (Event.decode? (d.line (d.done id report))) = _
      rw [decoded]
      rfl
    · unfold Execution.receive
      simp only
      rw [if_pos same.symm]

/-! ## Output -/

/-- A piece of output arrives if it denotes a text. -/
theorem feed_output (c : Channel) {piece : d.Str} (short : d.size piece ≤ chunk) :
    (atStart events).feed (d.sent (d.output c id piece)) =
      atStart (((d.text? piece).map (.output c id.toNat)).toList ++ events) := by
  have arrives : (atStart events).feed (d.sent (d.output c id piece)) = _ := feed_sent events _
  rw [arrives]
  refine (if_pos (length_output_le c id short)).trans ?_
  show after events (Event.decode? (d.line (d.output c id piece))) = _
  cases denoted : d.text? piece with
  | some text =>
    have decoded : Event.decode? (d.line (d.output c id piece)) = some (.output c id.toNat text) :=
      decode?_output.2 ⟨text, denoted, rfl⟩
    rw [decoded]
    rfl
  | none =>
    have refused : Event.decode? (d.line (d.output c id piece)) = none := by
      rw [Option.eq_none_iff_forall_ne_some]
      intro event decoded
      obtain ⟨text, given, -⟩ := decode?_output.1 decoded
      rw [denoted] at given
      cases given
    rw [refused]
    rfl

/-- Exactly the pieces that denote texts arrive, in their order. -/
theorem feed_pieces (c : Channel) {ps : List d.Str} (short : ∀ p ∈ ps, d.size p ≤ chunk)
    (events : List Event) :
    (atStart events).feed ((ps.map (d.output c id)).flatMap d.sent) =
      atStart (((ps.filterMap d.text?).map (.output c id.toNat)).reverse ++ events) := by
  induction ps generalizing events with
  | nil => rfl
  | cons p ps ih =>
    have split : ∀ bs cs : List UInt8, (atStart events).feed (bs ++ cs) =
        ((atStart events).feed bs).feed cs := fun bs cs => List.foldl_append
    rw [List.map_cons, List.flatMap_cons, split, feed_output c (short p (List.mem_cons_self ..)),
      ih fun q h => short q (List.mem_cons_of_mem _ h)]
    cases denoted : d.text? p with
    | none =>
      rw [List.filterMap_cons_none denoted]
      rfl
    | some text =>
      rw [List.filterMap_cons_some denoted, List.map_cons, List.reverse_cons, List.append_assoc]
      rfl

/-- A line of output is read exactly where its piece is a text. -/
theorem isSome_decode?_output {c : Channel} {piece : d.Str} :
    (Event.decode? (d.line (d.output c id piece))).isSome = true ↔ d.IsText piece := by
  rw [Option.isSome_iff_exists, Dialect.isText_iff, Option.isSome_iff_exists]
  constructor
  · rintro ⟨event, decoded⟩
    obtain ⟨text, denoted, -⟩ := decode?_output.1 decoded
    exact ⟨text, denoted⟩
  · rintro ⟨text, denoted⟩
    exact ⟨_, decode?_output.2 ⟨text, denoted, rfl⟩⟩

/-- In JavaScript output is written as it is. -/
theorem isText_written_iff {s : d.Str} : d.IsText (d.written s) ↔ d = .python ∨ d.IsText s := by
  cases d with
  | python => exact ⟨fun _ => .inl rfl, fun _ => Python.isText_clean s⟩
  | javaScript =>
    refine ⟨.inr, fun h => ?_⟩
    rcases h with is | text
    · cases is
    · exact text

/-- What the host makes of the lines of a driver. The event that a request is done is read exactly
where every string of the report on it is a text and every number has room, and it ends the execution
where besides the line is not too long. Of some output the pieces that are texts arrive, in their
order: all of them in Python, and in JavaScript where the output is a text, and then they make up what
is written. -/
theorem arrives_iff (d : Dialect) (id : UInt64) (events : List Event) :
    (∀ report, ((Event.decode? (d.line (d.done id report))).isSome = true ↔
        ∀ r ∈ report, r.IsSound) ∧
      (Ends d events id report ↔ (∀ r ∈ report, r.IsSound) ∧
        (Text.utf8 (d.line (d.done id report))).length ≤ maxLine)) ∧
    ∀ c s, (atStart events).feed ((d.outputs c (some id) s).flatMap d.sent) =
        atStart (((d.texts s).map (.output c id.toNat)).reverse ++ events) ∧
      ((∀ event ∈ d.outputs c (some id) s, (Event.decode? (d.line event)).isSome = true) ↔
        d = .python ∨ d.IsText s) ∧
      (d = .python ∨ d.IsText s ↔
        d.units (d.written s) = Text.utf16 (String.join (d.texts s))) := by
  refine ⟨fun report => ⟨?_, ends_iff⟩, fun c s => ⟨?_, ?_, ?_⟩⟩
  · rw [← exists_saysOf_iff, Option.isSome_iff_exists]
    constructor
    · rintro ⟨event, decoded⟩
      obtain ⟨fault, told, -⟩ := decode?_done.1 decoded
      exact ⟨fault, told⟩
    · rintro ⟨fault, told⟩
      exact ⟨_, decode?_done.2 ⟨fault, told, rfl⟩⟩
  · exact feed_pieces c (fun p => Dialect.size_le_of_mem_pieces) events
  · rw [← isText_written_iff, ← Dialect.isText_pieces_iff]
    constructor
    · intro all p inside
      exact isSome_decode?_output.1 (all _ (List.mem_map.2 ⟨p, inside, rfl⟩))
    · intro all event sent
      obtain ⟨p, inside, rfl⟩ := List.mem_map.1 sent
      exact isSome_decode?_output.2 (all p inside)
  · rw [← isText_written_iff]
    constructor
    · intro text
      exact Dialect.units_join_texts ((Dialect.isText_pieces_iff d s).2 text)
    · intro units
      exact ⟨_, units⟩

/-- A message that is a surrogate without its partner. -/
example : Event.decode? (Dialect.line .python (Dialect.done .python 1
    (some (Python.describe (.error [0xD800] (Python.ofString "ValueError") (some 1) none))))) =
      none := by
  decide +kernel

end SnippetRunner.Driver
