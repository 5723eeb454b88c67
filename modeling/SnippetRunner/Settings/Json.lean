import SnippetRunner.Settings.Basic

/-!
# Settings in JSON

The JSON form of the settings, both ways. A path that is no text has no JSON form. Members under
unknown names are refused, except in the budget.
-/

namespace SnippetRunner

/-- The JSON form of a path that is a text. -/
def Path.toJson? (p : Path) : Option Json.Value := p.text?.map .text

/-- The JSON form of runtime settings; limits and a binary that are not set are left out. -/
def RuntimeSettings.toJson? (s : RuntimeSettings) : Option Json.Value := do
  let binary ← match s.binary with
    | none => pure []
    | some b => do pure [("binary", ← b.toJson?)]
  let readable ← s.readable.mapM Path.toJson?
  pure (.record (binary ++
    (s.memoryLimit.map fun n => ("memory_limit", Json.Value.nat n)).toList ++
    (s.maxProcesses.map fun n => ("max_processes", Json.Value.nat n)).toList ++
    [("network", .bool s.network), ("extra_readonly_paths", .array readable)]))

/-- The JSON form of the settings. -/
def Settings.toJson? (s : Settings) : Option Json.Value := do
  let python ← s.python.toJson?
  let javascript ← s.javascript.toJson?
  pure (.record [("defaults", s.budget.toJson), ("init_timeout_ms", .nat s.startMillis),
    ("python", python), ("javascript", javascript)])

/-- Runtime settings from their JSON form. -/
def RuntimeSettings.ofJson? : Json.Decoder RuntimeSettings := fun v => do
  match ← Json.Decoder.fields
      ["binary", "memory_limit", "max_processes", "network", "extra_readonly_paths"] true v with
  | [binary, memory, processes, network, readable] =>
    let word := Json.Decoder.optional (Json.Decoder.word 64)
    let binary ← Json.Decoder.withDefault (Json.Decoder.optional Json.Decoder.text) none binary
    let memory ← Json.Decoder.withDefault word none memory
    let processes ← Json.Decoder.withDefault word none processes
    let network ← Json.Decoder.withDefault Json.Decoder.bool false network
    let readable ← Json.Decoder.withDefault (Json.Decoder.list Json.Decoder.text) [] readable
    pure ⟨binary.map .ofText, memory, processes, network, readable.map .ofText⟩
  | _ => none

/-- The settings from their JSON form; nothing is checked beyond names and types. -/
def Settings.ofJson? : Json.Decoder Settings := fun v => do
  match ← Json.Decoder.fields ["defaults", "init_timeout_ms", "python", "javascript"] true v with
  | [budget, millis, python, javascript] =>
    let budget ← Json.Decoder.withDefault Budget.ofJson? .standard budget
    let millis ← Json.Decoder.withDefault (Json.Decoder.word 64) standard.startMillis millis
    let python ← Json.Decoder.withDefault RuntimeSettings.ofJson? .standard python
    let javascript ← Json.Decoder.withDefault RuntimeSettings.ofJson? .standard javascript
    pure ⟨budget, millis, python, javascript⟩
  | _ => none

end SnippetRunner
