import SnippetRunner.Snippet.Fault
import SnippetRunner.Snippet.Transcript

/-!
# Reports

What an execution amounted to: its kept output, the fault if it did not complete, and the time it
took.
-/

namespace SnippetRunner

/-- The outcome of one execution. -/
structure Report where
  success : Bool
  stdout : String
  stderr : String
  fault : Option Fault
  elapsed : Span
  timedOut : Bool
  truncated : Bool
  deriving DecidableEq, Repr

namespace Report

/-- An execution that came to its end, with a fault or without. -/
def completed (output : Output) (fault : Option Fault) : Report :=
  ⟨fault.isNone, output.stdout, output.stderr, fault, .zero, false, output.truncated⟩

/-- An execution that failed. -/
def failed (output : Output) (fault : Fault) : Report := completed output (some fault)

/-- An execution that ran out of time. -/
def outOfTime (output : Output) (limit : Span) : Report :=
  { failed output (.timeout limit) with timedOut := true }

/-- The execution of nothing. -/
def empty : Report := completed .empty none

/-- The report with this execution time. -/
def taking (r : Report) (elapsed : Span) : Report := { r with elapsed }

/-- The JSON form; an absent fault is left out. -/
def toJson (r : Report) : Json.Value :=
  .record ([("success", .bool r.success), ("stdout", .text r.stdout), ("stderr", .text r.stderr)] ++
    (r.fault.map fun f => ("error", f.toJson)).toList ++
    [("executionTime", .nat r.elapsed.millisCapped), ("timedOut", .bool r.timedOut),
      ("truncated", .bool r.truncated)])

/-- A report from its JSON form, of which the fault and the mark of truncation may be missing.
Nothing is checked beyond the types. -/
def ofJson? : Json.Decoder Report := fun v => do
  match ← Json.Decoder.fields
      ["success", "stdout", "stderr", "error", "executionTime", "timedOut", "truncated"] false v with
  | [success, stdout, stderr, fault, elapsed, timedOut, truncated] =>
    let success ← Json.Decoder.required Json.Decoder.bool success
    let stdout ← Json.Decoder.required Json.Decoder.text stdout
    let stderr ← Json.Decoder.required Json.Decoder.text stderr
    let fault ← Json.Decoder.withDefault (Json.Decoder.optional Fault.ofJson?) none fault
    let ms ← Json.Decoder.required (Json.Decoder.word 64) elapsed
    let timedOut ← Json.Decoder.required Json.Decoder.bool timedOut
    let truncated ← Json.Decoder.withDefault Json.Decoder.bool false truncated
    pure ⟨success, stdout, stderr, fault, .ofMillis ms, timedOut, truncated⟩
  | _ => none

end Report

end SnippetRunner
