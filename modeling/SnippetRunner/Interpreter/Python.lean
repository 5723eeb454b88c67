import SnippetRunner.Interpreter.Search
import SnippetRunner.Json.Decoder
import SnippetRunner.Text.Blank

/-!
# Probing Python

Where a Python interpreter is searched, and what it tells about itself: its version, the program
that really runs, and the directories that hold its library.
-/

namespace SnippetRunner.Interpreter

namespace Python

/-- The variable that names the interpreter. -/
def binaryVariable : String := "SNIPBOX_PYTHON"

/-- The variables that name a virtual environment. -/
def directoryVariables : List String := ["VIRTUAL_ENV", "CONDA_PREFIX"]

/-- The places to look at last. -/
def places : List String :=
  ["/usr/bin/python3", "/usr/local/bin/python3", "/opt/python/bin/python3"]

/-- The names to look for on the search path, the one of a preferred version first. -/
def names (version : Option String) : List String :=
  (version.map fun v => "python" ++ v).toList ++ ["python3", "python"]

/-- What the interpreter prints about itself. -/
structure Description where
  version : String
  /-- The running program; empty where the interpreter cannot tell. -/
  executable : String
  prefixes : List String
  library : List String
  deriving DecidableEq, Repr

/-- A description from its JSON form. -/
def Description.ofJson? : Json.Decoder Description := fun v => do
  match ← Json.Decoder.fields ["version", "executable", "prefix", "base_prefix", "exec_prefix",
      "base_exec_prefix", "paths", "site_packages"] false v with
  | [version, executable, p1, p2, p3, p4, paths, packages] =>
    let texts := Json.Decoder.list Json.Decoder.text
    let version ← Json.Decoder.required Json.Decoder.text version
    let executable ← Json.Decoder.withDefault Json.Decoder.text "" executable
    let p1 ← Json.Decoder.required Json.Decoder.text p1
    let p2 ← Json.Decoder.required Json.Decoder.text p2
    let p3 ← Json.Decoder.required Json.Decoder.text p3
    let p4 ← Json.Decoder.required Json.Decoder.text p4
    let paths ← Json.Decoder.withDefault texts [] paths
    let packages ← Json.Decoder.withDefault texts [] packages
    pure ⟨version, executable, [p1, p2, p3, p4], paths ++ packages⟩
  | _ => none

/-- The profile of a binary that describes itself so. A launcher gives way to the program that it
runs. Readable are the installations of that program and of what it is a link to, and all
directories that the description names, as far as they exist. -/
def profile (h : Host) (binary : Path) (d : Description) : Profile :=
  let named := Path.ofText d.executable
  let program :=
    if named.isAbsolute then (h.executable? named).getD binary else binary
  let linked := match h.tree.canonical program with
    | .ok real => (installation? real).toList
    | .error _ => []
  let all := (installation? program).toList ++ linked ++ (d.prefixes ++ d.library).map Path.ofText
  let existing := (Path.sortUnique all).filter h.tree.has
  ({ Profile.new binary with executable := program, version := some d.version }).withAllReadable
    existing

/-- Runs the interpreter and reads what it prints. -/
def ask (h : Host) (binary : Path) : Except ProbeFailure Profile :=
  match h.run binary with
  | .error e => .error (.scriptFailed ("failed to run Python: " ++ e.message))
  | .ok r =>
    if !r.success then
      .error (.scriptFailed ("Python probe script failed: " ++ Text.decodeLossy r.stderr))
    else
      match (Json.parse? (Text.trim (Text.decodeLossy r.stdout))).bind Description.ofJson? with
      | some d => .ok (profile h binary d)
      | none => .error (.parse ("failed to parse Python probe output:" ++
          h.refusal "python" (Text.decodeLossy r.stdout)))

/-- Finds the interpreter. -/
def detect (binary : Option Path) (version : Option String) (h : Host) : Option Path :=
  match binary with
  | some b => h.executable? b
  | none =>
    match h.variableBinary? binaryVariable with
    | some p => some p
    | none =>
      match directoryVariables.findSome? fun v => h.variableDirectory? v "python3" with
      | some p => some p
      | none => h.binary? (names version) places

/-- The probe for Python, with a configured binary or a preferred version. -/
def probe (binary : Option Path) (version : Option String) : Probe where
  name := "python"
  detect := detect binary version
  searched := match binary with
    | some b => configuredLine b
    | none => searchedLines (binaryVariable :: directoryVariables) (names version) places
  ask := ask

end Python

end SnippetRunner.Interpreter
