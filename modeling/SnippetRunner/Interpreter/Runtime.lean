import SnippetRunner.Interpreter.Cache
import SnippetRunner.Interpreter.Node
import SnippetRunner.Interpreter.Python
import SnippetRunner.Language.Spec
import SnippetRunner.Settings.Basic

/-!
# Launching interpreters

The launch plans of the built-in languages: which interpreter runs the driver, what it may read, and
under which limits.
-/

namespace SnippetRunner.Interpreter

/-- A language with an interpreter, and the driver file that its workers run. -/
structure Runtime where
  language : Language
  settings : RuntimeSettings
  probe : Probe
  /-- The driver's file name in the workspace, and what is in the file. -/
  driver : String × List UInt8
  /-- The command that runs the driver, given the interpreter. -/
  command : RuntimeSettings → String → String → List String
  /-- The memory limit of the worker; an interpreter that limits itself has none. -/
  memoryLimit : RuntimeSettings → Option Nat
  /-- What the worker's environment has in addition to that of every worker. -/
  environment : Profile → Launch.Environment

/-- The memory limit of a Python worker where none is configured: 512 MiB. -/
def pythonMemory : Nat := 512 * 1024 * 1024

/-- The heap limit of a Node worker where none is configured: 256 MiB. -/
def nodeHeap : Nat := 256 * 1024 * 1024

/-- The heap limit of a Node worker in MiB, which is never below 16. -/
def heapMebibytes (s : RuntimeSettings) : Nat :=
  max 16 (s.memoryLimit.getD nodeHeap / (1024 * 1024))

/-- The Python runtime, whose driver file holds these bytes. -/
def pythonRuntime (s : RuntimeSettings) (driver : List UInt8) : Runtime where
  language := .python
  settings := s
  probe := Python.probe s.binary none
  driver := ("driver.py", driver)
  command := fun _ program file => [program, "-I", "-B", "../" ++ file]
  memoryLimit := fun s => some (s.memoryLimit.getD pythonMemory)
  environment := Profile.environment

/-- The Node runtime, whose driver file holds these bytes. The interpreter would read a system file
that its worker cannot see; a flag says that there is none. The environment in a profile counts for
nothing, also where the cache has the profile from another probe. -/
def nodeRuntime (s : RuntimeSettings) (driver : List UInt8) : Runtime where
  language := .javascript
  settings := s
  probe := Node.probe s.binary
  driver := ("driver.js", driver)
  command := fun s program file =>
    [program, "--openssl-config=/dev/null",
      "--max-old-space-size=" ++ Text.decimal (heapMebibytes s), "../" ++ file]
  memoryLimit := fun _ => none
  environment := fun _ => []

namespace Runtime

/-- The plan that launches the interpreter with this profile. -/
def planOf (r : Runtime) (p : Profile) : Launch.Plan :=
  let s := r.settings
  let plan := Launch.Plan.new (r.command s p.executable.display r.driver.1)
  let plan := plan.withFile r.driver.1 r.driver.2 false
  let plan := { plan with
    grants := p.readable.map .readExecute ++ s.readable.map .read
    memoryLimit := r.memoryLimit s
    maxProcesses := s.maxProcesses
    networkBlocked := !s.network }
  (r.environment p).foldl (fun plan e => plan.withEnv e.1 e.2) plan

/-- Finds the interpreter, asks it about itself unless the cache knows, and plans its launch. -/
def plan (r : Runtime) (h : Host) (c : Cache) : Except Failure Launch.Plan × Cache :=
  let failed (e : ProbeFailure) : Failure := .initialization r.language.id e.message
  match r.probe.locate h with
  | .error e => (.error (failed e), c)
  | .ok binary =>
    match c.getOrAsk h r.probe binary with
    | (.error e, c) => (.error (failed e), c)
    | (.ok p, c) => (.ok (r.planOf p), c)

end Runtime

end SnippetRunner.Interpreter
