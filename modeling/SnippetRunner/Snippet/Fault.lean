import SnippetRunner.Json.Decoder
import SnippetRunner.Time.Span

/-!
# Faults

The reason why executed code did not complete: an error of its own, a timeout, a termination, or the
loss of the worker that ran it. Faults made here always have a message, and a kind and a position
only where these mean something.
-/

namespace SnippetRunner

/-- Why executed code did not complete. -/
structure Fault where
  message : String
  kind : Option String
  line : Option Nat
  column : Option Nat
  deriving DecidableEq, Repr

namespace Fault

/-- The kind of a fault by timeout. -/
def timeoutKind : String := "Timeout"

/-- The kind of a fault by termination. -/
def terminatedKind : String := "Terminated"

/-- The kind of a fault by the loss of the worker. -/
def workerExitedKind : String := "WorkerExited"

/-- A fault with a message; an empty one is replaced. -/
def new (message : String) : Fault :=
  ⟨if message = "" then "unknown error" else message, none, none, none⟩

/-- The fault with this kind; an empty one means no kind. -/
def withKind (f : Fault) (kind : String) : Fault :=
  { f with kind := if kind = "" then none else some kind }

/-- A line or column, if it is positive and fits in 32 bits. -/
def position? (i : Int) : Option Nat :=
  if 0 < i ∧ i < Int.pow 2 32 then some i.toNat else none

/-- The fault at this position; a number that is no position is dropped. -/
def located (f : Fault) (line column : Option Int) : Fault :=
  { f with line := line.bind position?, column := column.bind position? }

/-- The code ran out of time. -/
def timeout (limit : Span) : Fault :=
  (new ("execution timeout after " ++ Text.decimal limit.millis ++ " ms")).withKind timeoutKind

/-- The execution was terminated. -/
def terminated : Fault := (new "execution terminated").withKind terminatedKind

/-- The worker was lost. -/
def workerExited (detail : String) : Fault :=
  (new ("runtime worker exited unexpectedly: " ++ detail)).withKind workerExitedKind

/-- The fault is of this kind. -/
def isKind (f : Fault) (kind : String) : Bool := f.kind == some kind

/-- The JSON form; what is absent is left out. -/
def toJson (f : Fault) : Json.Value :=
  .record ([("message", .text f.message)] ++
    (f.kind.map fun k => ("type", .text k)).toList ++
    (f.line.map fun n => ("line", .nat n)).toList ++
    (f.column.map fun n => ("column", .nat n)).toList)

/-- A fault from its JSON form. Only the message has to be there; nothing is checked beyond the
types. -/
def ofJson? : Json.Decoder Fault := fun v => do
  match ← Json.Decoder.fields ["message", "type", "line", "column"] false v with
  | [message, kind, line, column] =>
    let message ← Json.Decoder.required Json.Decoder.text message
    let kind ← Json.Decoder.withDefault (Json.Decoder.optional Json.Decoder.text) none kind
    let line ← Json.Decoder.withDefault (Json.Decoder.optional (Json.Decoder.word 32)) none line
    let column ←
      Json.Decoder.withDefault (Json.Decoder.optional (Json.Decoder.word 32)) none column
    pure ⟨message, kind, line, column⟩
  | _ => none

end Fault

end SnippetRunner
