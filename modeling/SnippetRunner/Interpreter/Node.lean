import SnippetRunner.Interpreter.Search
import SnippetRunner.Json.Decoder
import SnippetRunner.Text.Blank

/-!
# Probing Node

Where a Node interpreter is searched, and what it tells about itself: its version and the program
that really runs.
-/

namespace SnippetRunner.Interpreter

namespace Node

/-- The variable that names the interpreter. -/
def binaryVariable : String := "SNIPBOX_NODE"

/-- The names to look for on the search path. -/
def names : List String := ["node", "nodejs"]

/-- The places to look at last. -/
def places : List String := ["/usr/bin/node", "/usr/local/bin/node"]

/-- What the interpreter prints about itself. -/
structure Description where
  version : String
  executable : String
  deriving DecidableEq, Repr

/-- A description from its JSON form. -/
def Description.ofJson? : Json.Decoder Description := fun v => do
  match ← Json.Decoder.fields ["version", "execPath"] false v with
  | [version, executable] =>
    let version ← Json.Decoder.required Json.Decoder.text version
    let executable ← Json.Decoder.required Json.Decoder.text executable
    pure ⟨version, executable⟩
  | _ => none

/-- The profile of a binary that describes itself so. A launcher gives way to the program that it
runs, whose installation is readable. -/
def profile (h : Host) (binary : Path) (d : Description) : Profile :=
  let program := (h.executable? (.ofText d.executable)).getD binary
  let existing := (installation? program).toList.filter h.tree.has
  ({ Profile.new binary with executable := program, version := some d.version }).withAllReadable
    existing

/-- Runs the interpreter and reads what it prints. -/
def ask (h : Host) (binary : Path) : Except ProbeFailure Profile :=
  match h.run binary with
  | .error e => .error (.scriptFailed ("failed to run node: " ++ e.message))
  | .ok r =>
    if !r.success then .error (.scriptFailed ("node probe failed: " ++ Text.decodeLossy r.stderr))
    else
      match (Json.parse? (Text.trim (Text.decodeLossy r.stdout))).bind Description.ofJson? with
      | some d => .ok (profile h binary d)
      | none => .error (.parse ("failed to parse node probe output:" ++
          h.refusal "node" (Text.decodeLossy r.stdout)))

/-- Finds the interpreter. -/
def detect (binary : Option Path) (h : Host) : Option Path :=
  match binary with
  | some b => h.executable? b
  | none =>
    match h.variableBinary? binaryVariable with
    | some p => some p
    | none => h.binary? names places

/-- The probe for Node, with a configured binary. -/
def probe (binary : Option Path) : Probe where
  name := "node"
  detect := detect binary
  searched := match binary with
    | some b => configuredLine b
    | none => searchedLines [binaryVariable] names places
  ask := ask

end Node

end SnippetRunner.Interpreter
