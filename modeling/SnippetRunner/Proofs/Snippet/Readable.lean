import SnippetRunner.Proofs.Written

/-!
# Reports that can be read

Every way in which a report is made here makes a proper one: it has a fault exactly where the execution did
not succeed, and the fault has a message and no position zero. Reading a report is one more way to come by
one, and it asks only for types and ranges. So the reports that can be read are all those whose numbers have
room, proper ones and others; proper ones can be told from others only by where their texts come from.
-/

namespace SnippetRunner

open SnippetRunner.Json (Value Decoder)

/-! ## Ranges -/

namespace Json

variable {bits n : Nat} {v : Value} {o : Option Value}

/-- A number that is read from a field has room there. -/
theorem lt_of_word (h : Decoder.word bits v = some n) : n < 2 ^ bits := by
  obtain ⟨i, read, rfl⟩ := Option.map_eq_some_iff.1 h
  have range : 0 ≤ i ∧ i ≤ Int.pow 2 bits - 1 := by
    unfold Decoder.int at read
    split at read
    · obtain ⟨j, -, kept⟩ := Option.bind_eq_some_iff.1 read
      obtain ⟨inside, same⟩ := Option.ite_none_right_eq_some.1 kept
      exact Option.some.inj same ▸ inside
    · cases read
  have bound : i < 2 ^ bits := by
    show i < Int.pow 2 bits
    omega
  have size : ((2 ^ bits : Nat) : Int) = 2 ^ bits := by norm_cast
  omega

/-- What is read where something may be absent is a value that has been read. -/
theorem exists_of_optional {α : Type} {d : Decoder α} {x : Option α}
    (h : Decoder.withDefault (Decoder.optional d) none o = some x) : ∀ a ∈ x, ∃ v, d v = some a := by
  cases o with
  | none =>
    cases h
    exact nofun
  | some v =>
    rw [withDefault_some] at h
    unfold Decoder.optional at h
    split at h
    · cases h
      exact nofun
    · obtain ⟨a, read, rfl⟩ := Option.map_eq_some_iff.1 h
      rintro b ⟨⟩
      exact ⟨_, read⟩

theorem lt_of_optional_word {x : Option Nat}
    (h : Decoder.withDefault (Decoder.optional (Decoder.word bits)) none o = some x) :
    ∀ n ∈ x, n < 2 ^ bits := by
  intro n is
  obtain ⟨v, read⟩ := exists_of_optional h n is
  exact lt_of_word read

end Json

/-! ## Proper reports -/

/-- There is a message, and no line or column is zero. -/
structure Fault.IsProper (f : Fault) : Prop where
  message : f.message ≠ ""
  line : f.line ≠ some 0
  column : f.column ≠ some 0

/-- There is a proper fault exactly where the execution did not succeed, and none succeeds out of time. -/
structure Report.IsProper (r : Report) : Prop where
  faulty : r.fault.isSome = !r.success
  late : r.timedOut = true → r.success = false
  fault : ∀ f ∈ r.fault, f.IsProper

/-- A report is as proper as what survives of it when it is written. -/
theorem Report.isProper_written_iff {r : Report} : r.written.IsProper ↔ r.IsProper :=
  ⟨fun h => ⟨h.faulty, h.late, h.fault⟩, fun h => ⟨h.faulty, h.late, h.fault⟩⟩

/-! ## What can be read -/

theorem Fault.hasRoom_of_ofJson? {v : Value} {f : Fault} (h : ofJson? v = some f) : f.HasRoom := by
  obtain ⟨fields, -, h⟩ := Option.bind_eq_some_iff.1 h
  split at h
  · obtain ⟨message, -, h⟩ := Option.bind_eq_some_iff.1 h
    obtain ⟨kind, -, h⟩ := Option.bind_eq_some_iff.1 h
    obtain ⟨line, lines, h⟩ := Option.bind_eq_some_iff.1 h
    obtain ⟨column, columns, h⟩ := Option.bind_eq_some_iff.1 h
    cases h
    exact ⟨Json.lt_of_optional_word lines, Json.lt_of_optional_word columns⟩
  · cases h

/-- A span of whole milliseconds that has room survives being written. -/
theorem Span.written_ofMillis {ms : Nat} (room : ms < 2 ^ 64) : (ofMillis ms).written = ofMillis ms := by
  have word : Text.maxWord = 2 ^ 64 - 1 := rfl
  have capped : (ofMillis ms).millisCapped = ms := by
    unfold millisCapped
    rw [millis_ofMillis, word]
    omega
  unfold written
  rw [capped]

theorem Report.hasRoom_of_ofJson? {v : Value} {r : Report} (h : ofJson? v = some r) :
    r.HasRoom ∧ r.written = r := by
  obtain ⟨fields, -, h⟩ := Option.bind_eq_some_iff.1 h
  split at h
  · obtain ⟨success, -, h⟩ := Option.bind_eq_some_iff.1 h
    obtain ⟨stdout, -, h⟩ := Option.bind_eq_some_iff.1 h
    obtain ⟨stderr, -, h⟩ := Option.bind_eq_some_iff.1 h
    obtain ⟨fault, faults, h⟩ := Option.bind_eq_some_iff.1 h
    obtain ⟨ms, time, h⟩ := Option.bind_eq_some_iff.1 h
    obtain ⟨timedOut, -, h⟩ := Option.bind_eq_some_iff.1 h
    obtain ⟨truncated, -, h⟩ := Option.bind_eq_some_iff.1 h
    cases h
    obtain ⟨w, -, word⟩ := Option.bind_eq_some_iff.1 time
    have whole := Span.written_ofMillis (Json.lt_of_word word)
    refine ⟨fun f is => ?_, by unfold written; rw [whole]⟩
    obtain ⟨u, read⟩ := Json.exists_of_optional faults f is
    exact Fault.hasRoom_of_ofJson? read
  · cases h

theorem Fault.read_write {f : Fault} (room : f.HasRoom) :
    (Json.parse? f.toJson.write).bind ofJson? = some f := by
  rw [Json.parse?_write f.plain_toJson]
  exact ofJson?_toJson room

theorem Report.read_write {r : Report} (room : r.HasRoom) :
    (Json.parse? r.toJson.write).bind ofJson? = some r.written := by
  rw [Json.parse?_write r.plain_toJson]
  exact ofJson?_toJson room

/-- Reading looks at types and ranges only. A fault or report is read from some text exactly if its numbers
have room and its time is one of whole milliseconds, proper or not; and the text that a report is written as
is read as a proper one exactly if the report was. -/
theorem readable_iff_hasRoom (f : Fault) (r : Report) :
    ((∃ text, (Json.parse? text).bind Fault.ofJson? = some f) ↔ f.HasRoom) ∧
    ((∃ text, (Json.parse? text).bind Report.ofJson? = some r) ↔ r.HasRoom ∧ r.written = r) ∧
    (r.HasRoom → ∃ r', (Json.parse? r.toJson.write).bind Report.ofJson? = some r' ∧
      (r'.IsProper ↔ r.IsProper)) := by
  refine ⟨⟨?_, fun room => ⟨_, Fault.read_write room⟩⟩, ⟨?_, ?_⟩, fun room => ?_⟩
  · rintro ⟨text, read⟩
    obtain ⟨v, -, read⟩ := Option.bind_eq_some_iff.1 read
    exact Fault.hasRoom_of_ofJson? read
  · rintro ⟨text, read⟩
    obtain ⟨v, -, read⟩ := Option.bind_eq_some_iff.1 read
    exact Report.hasRoom_of_ofJson? read
  · rintro ⟨room, whole⟩
    exact ⟨r.toJson.write, (Report.read_write room).trans (congrArg some whole)⟩
  · exact ⟨r.written, Report.read_write room, Report.isProper_written_iff⟩

/-- A report that succeeded out of time with a fault without a message, at line zero, is read from a text;
a report that was made properly is read as a proper one. -/
theorem readable_iff_hasRoom_improper :
    let fault : Fault := ⟨"", none, some 0, some 0⟩
    let report : Report := ⟨true, "", "", some fault, .zero, true, false⟩
    (¬fault.IsProper ∧ ∃ text, (Json.parse? text).bind Fault.ofJson? = some fault) ∧
    (¬report.IsProper ∧ ∃ text, (Json.parse? text).bind Report.ofJson? = some report) ∧
    Report.empty.HasRoom ∧ ∃ r', (Json.parse? Report.empty.toJson.write).bind Report.ofJson? = some r' ∧
      r'.IsProper := by
  intro fault report
  have roomFault : fault.HasRoom := ⟨by simp [fault], by simp [fault]⟩
  have roomReport : report.HasRoom := by
    rintro f ⟨⟩
    exact roomFault
  have whole : report.written = report := by decide +kernel
  have roomEmpty : Report.empty.HasRoom := nofun
  obtain ⟨ofFault, ofReport, -⟩ := readable_iff_hasRoom fault report
  refine ⟨⟨fun h => h.message rfl, ofFault.2 roomFault⟩,
    ⟨fun h => absurd h.faulty (by decide), ofReport.2 ⟨roomReport, whole⟩⟩, roomEmpty, ?_⟩
  obtain ⟨r', read, same⟩ := (readable_iff_hasRoom fault Report.empty).2.2 roomEmpty
  exact ⟨r', read, same.2 ⟨rfl, nofun, nofun⟩⟩

end SnippetRunner
