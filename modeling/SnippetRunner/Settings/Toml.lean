import SnippetRunner.Settings.Basic
import SnippetRunner.Toml.Reader

/-!
# Settings in TOML

The settings that a TOML document gives. A record is a table, or an array of its fields in order of
which the last ones may be missing and any further ones count for nothing. Unknown names are
refused, except in the budget. Settings that a document gives are checked at once.
-/

namespace SnippetRunner

/-- The fields of a record under the given names. -/
def Toml.Value.fields (names : List String) (strict : Bool) : Toml.Value →
    Option (List (Option Toml.Value))
  | .table _ entries =>
    if strict && entries.any fun e => !names.contains e.1 then none
    else some (names.map fun n => Toml.Entries.get? entries n)
  | .array items => some ((List.range names.length).map fun i => items[i]?)
  | .tables items =>
    some ((List.range names.length).map fun i => items[i]?.map fun t => .table .header t)
  | _ => none

/-- A number of 64 bits. -/
def Toml.Value.word? : Toml.Value → Option Nat
  | .integer i => if 0 ≤ i ∧ i < Int.pow 2 64 then some i.toNat else none
  | _ => none

/-- A path. -/
def Toml.Value.path? : Toml.Value → Option Path
  | .string s => some (.ofText s)
  | _ => none

/-- A list of paths. -/
def Toml.Value.paths? : Toml.Value → Option (List Path)
  | .array items => items.mapM Toml.Value.path?
  | _ => none

/-- A truth value. -/
def Toml.Value.bool? : Toml.Value → Option Bool
  | .bool b => some b
  | _ => none

/-- The value of a field, or the one it has where it is missing. -/
def Toml.fieldOr {α : Type} (read : Toml.Value → Option α) (default : α) :
    Option Toml.Value → Option α
  | none => some default
  | some v => read v

/-- A budget; limits that are missing are the standard ones. -/
def Budget.ofToml? (v : Toml.Value) : Option Budget := do
  match ← v.fields ["timeout", "maxOutputLines", "maxOutputBytes"] false with
  | [timeout, lines, bytes] =>
    let ms ← Toml.fieldOr Toml.Value.word? standard.timeout.millis timeout
    let lines ← Toml.fieldOr Toml.Value.word? standard.maxLines lines
    let bytes ← Toml.fieldOr Toml.Value.word? standard.maxBytes bytes
    pure ⟨.ofMillis ms, lines, bytes⟩
  | _ => none

/-- Runtime settings. -/
def RuntimeSettings.ofToml? (v : Toml.Value) : Option RuntimeSettings := do
  match ← v.fields
      ["binary", "memory_limit", "max_processes", "network", "extra_readonly_paths"] true with
  | [binary, memory, processes, network, readable] =>
    let binary ← Toml.fieldOr (fun v => v.path?.map some) none binary
    let memory ← Toml.fieldOr (fun v => v.word?.map some) none memory
    let processes ← Toml.fieldOr (fun v => v.word?.map some) none processes
    let network ← Toml.fieldOr Toml.Value.bool? false network
    let readable ← Toml.fieldOr Toml.Value.paths? [] readable
    pure ⟨binary, memory, processes, network, readable⟩
  | _ => none

/-- The settings, before they are checked. -/
def Settings.ofEntries? (t : Toml.Entries) : Option Settings := do
  let v := Toml.Value.table .header t
  match ← v.fields ["defaults", "init_timeout_ms", "python", "javascript"] true with
  | [budget, millis, python, javascript] =>
    let budget ← Toml.fieldOr Budget.ofToml? .standard budget
    let millis ← Toml.fieldOr Toml.Value.word? standard.startMillis millis
    let python ← Toml.fieldOr RuntimeSettings.ofToml? .standard python
    let javascript ← Toml.fieldOr RuntimeSettings.ofToml? .standard javascript
    pure ⟨budget, millis, python, javascript⟩
  | _ => none

/-- The settings that a document gives, if it is one and they are valid. -/
def Settings.ofToml (text : String) (wording : Wording := {}) : Except Failure Settings :=
  match (Toml.read? text).bind Settings.ofEntries? with
  | none => .error (.invalidConfig (wording.toml text))
  | some s => do
    s.validate
    pure s

end SnippetRunner
