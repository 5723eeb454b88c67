import Mathlib.Data.Set.List
import SnippetRunner.Proofs.Json.Records
import SnippetRunner.Proofs.Json.RoundTrip
import SnippetRunner.Proofs.Text.Encoding
import SnippetRunner.Settings.Json
import SnippetRunner.Snippet.Report

/-!
# Data that survives being written

Budgets, faults, reports and settings are read back from their written form as they were, except that
a time comes back in whole milliseconds. Every number has to fit in its field, and every path has to be
a text.
-/

namespace SnippetRunner

open SnippetRunner.Json (Value Decoder get?_record_nil get?_record_cons get?_record_append
  get?_record_optional)

/-! ## Budgets -/

namespace Budget

/-- The numbers of a budget fit in their fields. -/
def HasRoom (b : Budget) : Prop := b.maxLines < 2 ^ 64 ∧ b.maxBytes < 2 ^ 64

/-- A budget as it survives being written. -/
def written (b : Budget) : Budget := { b with timeout := b.timeout.written }

theorem plain_toJson (b : Budget) : b.toJson.Plain := by
  apply Json.plain_record
  simp [Json.plain_nat]

theorem ofJson?_toJson {b : Budget} (room : b.HasRoom) : ofJson? b.toJson = some b.written := by
  have fields : Decoder.fields ["timeout", "maxOutputLines", "maxOutputBytes"] false b.toJson =
      some [some (.nat b.timeout.millisCapped), some (.nat b.maxLines), some (.nat b.maxBytes)] :=
    Json.fields_of_sublist (List.Sublist.refl _) (by decide)
  have millis : b.timeout.millisCapped < 2 ^ 64 :=
    Nat.lt_of_le_of_lt (Nat.min_le_right ..) (by decide)
  unfold ofJson?
  simp [fields, Json.withDefault_some, Json.word_nat millis, Json.word_nat room.1,
    Json.word_nat room.2, written, Span.written]

end Budget

/-! ## Faults -/

namespace Fault

/-- The position of a fault fits in its fields. -/
def HasRoom (f : Fault) : Prop := (∀ n ∈ f.line, n < 2 ^ 32) ∧ ∀ n ∈ f.column, n < 2 ^ 32

theorem plain_toJson (f : Fault) : f.toJson.Plain := by
  apply Json.plain_record
  simp only [List.forall_mem_append, List.forall_mem_singleton]
  exact ⟨⟨⟨Json.plain_text f.message, Json.plain_optional Json.plain_text f.kind "type"⟩,
    Json.plain_optional Json.plain_nat f.line "line"⟩,
    Json.plain_optional Json.plain_nat f.column "column"⟩

/-- The fields of a written fault are its parts. -/
theorem fields_toJson (f : Fault) :
    Decoder.fields ["message", "type", "line", "column"] false f.toJson =
      some [some (.text f.message), f.kind.map .text, f.line.map .nat, f.column.map .nat] := by
  refine (Json.fields_of_sublist ?_ (by decide)).trans ?_
  · simp only [List.map_append]
    exact ((List.Sublist.append (List.Sublist.refl ["message"])
      (Json.sublist_names_optional f.kind "type" _)).append
      (Json.sublist_names_optional f.line "line" _)).append
      (Json.sublist_names_optional f.column "column" _)
  · simp [get?_record_append, get?_record_cons, get?_record_optional]

theorem ofJson?_toJson {f : Fault} (room : f.HasRoom) : ofJson? f.toJson = some f := by
  have kind : Decoder.withDefault (Decoder.optional Decoder.text) none (f.kind.map .text) =
      some f.kind := Json.withDefault_optional rfl fun _ _ => rfl
  have line : Decoder.withDefault (Decoder.optional (Decoder.word 32)) none (f.line.map .nat) =
      some f.line := Json.withDefault_optional rfl fun n is => Json.word_nat (room.1 n is)
  have column : Decoder.withDefault (Decoder.optional (Decoder.word 32)) none (f.column.map .nat) =
      some f.column := Json.withDefault_optional rfl fun n is => Json.word_nat (room.2 n is)
  unfold ofJson?
  simp [fields_toJson, kind, line, column, Decoder.required, Decoder.text, Value.text]

end Fault

/-! ## Reports -/

namespace Report

/-- The position of the fault, if there is one, fits in its fields. -/
def HasRoom (r : Report) : Prop := ∀ f ∈ r.fault, f.HasRoom

/-- A report as it survives being written. -/
def written (r : Report) : Report := { r with elapsed := r.elapsed.written }

theorem plain_toJson (r : Report) : r.toJson.Plain := by
  apply Json.plain_record
  simp only [List.forall_mem_append]
  refine ⟨⟨?_, Json.plain_optional Fault.plain_toJson r.fault "error"⟩, ?_⟩
  · simp [Json.plain_text, Json.plain_bool]
  · simp [Json.plain_nat, Json.plain_bool]

/-- The fields of a written report are its parts. -/
theorem fields_toJson (r : Report) :
    Decoder.fields ["success", "stdout", "stderr", "error", "executionTime", "timedOut", "truncated"]
      false r.toJson =
      some [some (.bool r.success), some (.text r.stdout), some (.text r.stderr),
        r.fault.map Fault.toJson, some (.nat r.elapsed.millisCapped), some (.bool r.timedOut),
        some (.bool r.truncated)] := by
  refine (Json.fields_of_sublist ?_ (by decide)).trans ?_
  · simp only [List.map_append]
    exact ((List.Sublist.refl ["success", "stdout", "stderr"]).append
      (Json.sublist_names_optional r.fault "error" _)).append (List.Sublist.refl _)
  · simp [get?_record_append, get?_record_cons, get?_record_nil, get?_record_optional]

theorem ofJson?_toJson {r : Report} (room : r.HasRoom) : ofJson? r.toJson = some r.written := by
  have fault : Decoder.withDefault (Decoder.optional Fault.ofJson?) none
      (r.fault.map Fault.toJson) = some r.fault :=
    Json.withDefault_optional rfl fun f is => Fault.ofJson?_toJson (room f is)
  have millis : r.elapsed.millisCapped < 2 ^ 64 :=
    Nat.lt_of_le_of_lt (Nat.min_le_right ..) (by decide)
  unfold ofJson?
  simp [fields_toJson, fault, Json.withDefault_some, Decoder.required, Decoder.text, Decoder.bool,
    Value.text, Json.word_nat millis, written, Span.written]

end Report

/-! ## Settings -/

namespace Path

/-- The path is spelled by a text. -/
def IsText (p : Path) : Prop := p ∈ Set.range Path.ofText

theorem toJson?_ofText (s : String) : (Path.ofText s).toJson? = some (.text s) :=
  congrArg (Option.map Value.text) (Text.decode?_utf8 s)

/-- Paths that are texts are spelled by some texts. -/
theorem exists_texts {ps : List Path} (texts : ∀ p ∈ ps, p.IsText) :
    ∃ ts : List String, ts.map .ofText = ps :=
  (Set.range_list_map Path.ofText).ge texts

/-- So is a path that may be missing. -/
theorem exists_text? {o : Option Path} (text : ∀ p ∈ o, p.IsText) :
    ∃ t : Option String, t.map .ofText = o := by
  cases o with
  | none => exact ⟨none, rfl⟩
  | some p =>
    obtain ⟨t, rfl⟩ := text p rfl
    exact ⟨some t, rfl⟩

end Path

namespace RuntimeSettings

/-- The limits fit in their fields, and the paths are texts. -/
structure HasRoom (s : RuntimeSettings) : Prop where
  memory : ∀ n ∈ s.memoryLimit, n < 2 ^ 64
  processes : ∀ n ∈ s.maxProcesses, n < 2 ^ 64
  binary : ∀ p ∈ s.binary, p.IsText
  readable : ∀ p ∈ s.readable, p.IsText

/-- The JSON form of runtime settings whose paths are spelled by these texts. -/
def spelled (s : RuntimeSettings) (binary : Option String) (readable : List String) : Value :=
  .record ((binary.map fun t => ("binary", Value.text t)).toList ++
    (s.memoryLimit.map fun n => ("memory_limit", Value.nat n)).toList ++
    (s.maxProcesses.map fun n => ("max_processes", Value.nat n)).toList ++
    [("network", .bool s.network), ("extra_readonly_paths", .array (readable.map .text))])

variable {s : RuntimeSettings} {binary : Option String} {readable : List String}

theorem toJson?_eq_spelled (first : binary.map .ofText = s.binary)
    (more : readable.map .ofText = s.readable) : s.toJson? = some (s.spelled binary readable) := by
  have paths : s.readable.mapM Path.toJson? = some (readable.map .text) := by
    rw [← more, List.mapM_map]
    exact Json.mapM_eq_some_map fun t _ => Path.toJson?_ofText t
  unfold toJson?
  rw [paths, ← first]
  cases binary with
  | none => rfl
  | some t => simp [Path.toJson?_ofText, spelled]

theorem plain_spelled (s : RuntimeSettings) (binary : Option String) (readable : List String) :
    (s.spelled binary readable).Plain := by
  apply Json.plain_record
  simp only [List.forall_mem_append]
  refine ⟨⟨⟨Json.plain_optional Json.plain_text binary "binary",
    Json.plain_optional Json.plain_nat s.memoryLimit "memory_limit"⟩,
    Json.plain_optional Json.plain_nat s.maxProcesses "max_processes"⟩, ?_⟩
  have paths : (Value.array (readable.map .text)).Plain := by
    apply Json.plain_array
    simp [Json.plain_text]
  simp [paths, Json.plain_bool]

/-- The fields of written runtime settings are their parts. -/
theorem fields_spelled (s : RuntimeSettings) (binary : Option String) (readable : List String) :
    Decoder.fields ["binary", "memory_limit", "max_processes", "network", "extra_readonly_paths"]
      true (s.spelled binary readable) =
      some [binary.map .text, s.memoryLimit.map .nat, s.maxProcesses.map .nat,
        some (.bool s.network), some (.array (readable.map .text))] := by
  refine (Json.fields_of_sublist ?_ (by decide)).trans ?_
  · simp only [List.map_append]
    exact (((Json.sublist_names_optional binary "binary" _).append
      (Json.sublist_names_optional s.memoryLimit "memory_limit" _)).append
      (Json.sublist_names_optional s.maxProcesses "max_processes" _)).append (List.Sublist.refl _)
  · simp [get?_record_append, get?_record_cons, get?_record_nil, get?_record_optional]

theorem ofJson?_spelled (room : s.HasRoom) (first : binary.map .ofText = s.binary)
    (more : readable.map .ofText = s.readable) :
    ofJson? (s.spelled binary readable) = some s := by
  have path : Decoder.withDefault (Decoder.optional Decoder.text) none (binary.map .text) =
      some binary := Json.withDefault_optional rfl fun _ _ => rfl
  have memory : Decoder.withDefault (Decoder.optional (Decoder.word 64)) none
      (s.memoryLimit.map .nat) = some s.memoryLimit :=
    Json.withDefault_optional rfl fun n is => Json.word_nat (room.memory n is)
  have processes : Decoder.withDefault (Decoder.optional (Decoder.word 64)) none
      (s.maxProcesses.map .nat) = some s.maxProcesses :=
    Json.withDefault_optional rfl fun n is => Json.word_nat (room.processes n is)
  have paths : Decoder.list Decoder.text (.array (readable.map .text)) = some readable := by
    show (readable.map Value.text).mapM Decoder.text = _
    have each : ∀ t ∈ readable, (Decoder.text ∘ Value.text) t = some (id t) := fun _ _ => rfl
    rw [List.mapM_map, Json.mapM_eq_some_map each, List.map_id]
  unfold ofJson?
  simp [fields_spelled, path, memory, processes, paths, first, more, Json.withDefault_some,
    Decoder.bool]

/-- Runtime settings have a JSON form, and are read back from it. -/
theorem exists_toJson? (room : s.HasRoom) :
    ∃ v : Value, s.toJson? = some v ∧ v.Plain ∧ ofJson? v = some s := by
  obtain ⟨binary, first⟩ := Path.exists_text? room.binary
  obtain ⟨readable, more⟩ := Path.exists_texts room.readable
  exact ⟨_, toJson?_eq_spelled first more, plain_spelled s binary readable,
    ofJson?_spelled room first more⟩

end RuntimeSettings

namespace Settings

/-- All numbers fit in their fields, and all paths are texts. -/
structure HasRoom (s : Settings) : Prop where
  budget : s.budget.HasRoom
  start : s.startMillis < 2 ^ 64
  python : s.python.HasRoom
  javascript : s.javascript.HasRoom

/-- Settings as they survive being written. -/
def written (s : Settings) : Settings := { s with budget := s.budget.written }

/-- Settings have a JSON form, and are read back from it. -/
theorem exists_toJson? {s : Settings} (room : s.HasRoom) :
    ∃ v : Value, s.toJson? = some v ∧ v.Plain ∧ ofJson? v = some s.written := by
  obtain ⟨python, writtenPython, plainPython, readPython⟩ := RuntimeSettings.exists_toJson? room.python
  obtain ⟨javascript, writtenJavascript, plainJavascript, readJavascript⟩ :=
    RuntimeSettings.exists_toJson? room.javascript
  let members := [("defaults", s.budget.toJson), ("init_timeout_ms", Value.nat s.startMillis),
    ("python", python), ("javascript", javascript)]
  refine ⟨.record members, ?_, ?_, ?_⟩
  · unfold toJson?
    rw [writtenPython, writtenJavascript]
    rfl
  · apply Json.plain_record
    simp [members, Budget.plain_toJson, Json.plain_nat, plainPython, plainJavascript]
  · have fields : Decoder.fields ["defaults", "init_timeout_ms", "python", "javascript"] true
        (.record members) = some (members.map fun m => some m.2) :=
      Json.fields_of_sublist (List.Sublist.refl _) (by decide)
    unfold ofJson?
    simp [fields, members, Json.withDefault_some, Budget.ofJson?_toJson room.budget,
      Json.word_nat room.start, readPython, readJavascript, written]

end Settings

/-! ## Texts -/

/-- What is written and has room is read back, each time in whole milliseconds. -/
theorem written_survives :
    (∀ b : Budget, b.HasRoom →
      (Json.parse? b.toJson.write).bind Budget.ofJson? = some b.written) ∧
    (∀ f : Fault, f.HasRoom → (Json.parse? f.toJson.write).bind Fault.ofJson? = some f) ∧
    (∀ r : Report, r.HasRoom →
      (Json.parse? r.toJson.write).bind Report.ofJson? = some r.written) ∧
    ∀ s : Settings, s.HasRoom → ∃ v : Value, s.toJson? = some v ∧
      (Json.parse? v.write).bind Settings.ofJson? = some s.written := by
  refine ⟨fun b room => ?_, fun f room => ?_, fun r room => ?_, fun s room => ?_⟩
  · rw [Json.parse?_write b.plain_toJson]
    exact Budget.ofJson?_toJson room
  · rw [Json.parse?_write f.plain_toJson]
    exact Fault.ofJson?_toJson room
  · rw [Json.parse?_write r.plain_toJson]
    exact Report.ofJson?_toJson room
  · obtain ⟨v, written, plain, read⟩ := Settings.exists_toJson? room
    refine ⟨v, written, ?_⟩
    rw [Json.parse?_write plain]
    exact read

/-- A finer part of a millisecond is dropped, a time too long is capped, and everything else comes
back, the greatest numbers and characters of every kind included. -/
theorem written_survives_at_bounds :
    let budget : Budget := ⟨⟨1500999999⟩, 2 ^ 64 - 1, 0⟩
    let fault : Fault := ⟨"\"\n\x01\\é😀", some "", some (2 ^ 32 - 1), none⟩
    let report : Report := ⟨false, "", "\u2028", some fault, ⟨2 ^ 64 * 1000000⟩, true, false⟩
    let python : RuntimeSettings :=
      ⟨some (.ofText "/usr/bin/python3"), some (2 ^ 64 - 1), none, true, [.ofText "", .ofText "é"]⟩
    let settings : Settings := ⟨budget, 0, python, .standard⟩
    (budget.HasRoom ∧ (Json.parse? budget.toJson.write).bind Budget.ofJson? =
      some ⟨⟨1500000000⟩, 2 ^ 64 - 1, 0⟩) ∧
    (fault.HasRoom ∧ (Json.parse? fault.toJson.write).bind Fault.ofJson? = some fault) ∧
    (report.HasRoom ∧ (Json.parse? report.toJson.write).bind Report.ofJson? =
      some { report with elapsed := .ofMillis (2 ^ 64 - 1) }) ∧
    (settings.HasRoom ∧ ∃ v : Value, settings.toJson? = some v ∧
      (Json.parse? v.write).bind Settings.ofJson? =
        some ⟨⟨⟨1500000000⟩, 2 ^ 64 - 1, 0⟩, 0, python, .standard⟩) := by
  intro budget fault report python settings
  have roomBudget : budget.HasRoom := ⟨by decide, by decide⟩
  have roomFault : fault.HasRoom := ⟨by simp [fault], by simp [fault]⟩
  have roomReport : report.HasRoom := by
    intro f is
    obtain rfl : fault = f := Option.some.inj is
    exact roomFault
  have roomPython : python.HasRoom :=
    ⟨by simp [python], by simp [python], by simp [python, Path.IsText], by simp [python, Path.IsText]⟩
  have roomSettings : settings.HasRoom :=
    ⟨roomBudget, by decide, roomPython, ⟨nofun, nofun, nofun, nofun⟩⟩
  have whole : budget.written = ⟨⟨1500000000⟩, 2 ^ 64 - 1, 0⟩ := by decide +kernel
  have capped : Span.written ⟨2 ^ 64 * 1000000⟩ = .ofMillis (2 ^ 64 - 1) := by decide +kernel
  obtain ⟨budgets, faults, reports, all⟩ := written_survives
  refine ⟨⟨roomBudget, ?_⟩, ⟨roomFault, faults fault roomFault⟩, ⟨roomReport, ?_⟩, roomSettings, ?_⟩
  · rw [budgets budget roomBudget, whole]
  · rw [reports report roomReport, Report.written, capped]
  · obtain ⟨v, form, read⟩ := all settings roomSettings
    exact ⟨v, form, by rw [read, Settings.written, whole]⟩

end SnippetRunner
