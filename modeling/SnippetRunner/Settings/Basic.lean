import SnippetRunner.Path
import SnippetRunner.Snippet.Budget

/-!
# Settings

What a user can configure: the standard budget, how long a worker may take to start, and for each
runtime its binary, limits and host paths. Everything has a value of its own where nothing is
configured.
-/

namespace SnippetRunner

/-- The settings of one runtime. -/
structure RuntimeSettings where
  /-- The interpreter; where none is set, it is searched for. -/
  binary : Option Path
  /-- The memory limit in bytes. -/
  memoryLimit : Option Nat
  maxProcesses : Option Nat
  /-- Executed code may use the network. -/
  network : Bool
  /-- More host paths that may be read. -/
  readable : List Path
  deriving DecidableEq, Repr

/-- The settings. -/
structure Settings where
  /-- The budget of executions that bring none. -/
  budget : Budget
  /-- How long a worker may take to become ready, in milliseconds. -/
  startMillis : Nat
  python : RuntimeSettings
  javascript : RuntimeSettings
  deriving DecidableEq, Repr

namespace RuntimeSettings

/-- Nothing is configured. -/
def standard : RuntimeSettings := ⟨none, none, none, false, []⟩

/-- Refuses limits of zero and a binary that is no absolute path. -/
def validate (s : RuntimeSettings) (language : String) : Except Failure Unit :=
  if s.memoryLimit = some 0 then
    .error (.invalidConfig (language ++ ".memory_limit must be positive"))
  else if s.maxProcesses = some 0 then
    .error (.invalidConfig (language ++ ".max_processes must be positive"))
  else match s.binary with
    | none => .ok ()
    | some b =>
      if b.isAbsolute then .ok ()
      else .error (.invalidConfig (language ++ ".binary must be an absolute path: " ++ b.display))

end RuntimeSettings

namespace Settings

/-- Nothing is configured: the standard budget, and thirty seconds to start. -/
def standard : Settings := ⟨.standard, 30000, .standard, .standard⟩

/-- Checks the settings, the budget first and the runtimes in their order last. -/
def validate (s : Settings) : Except Failure Unit := do
  match s.budget.validate with
  | .ok () => pure ()
  | .error e => throw (.invalidConfig ("defaults: " ++ e.message))
  if s.startMillis = 0 then throw (.invalidConfig "init_timeout_ms must be positive")
  s.python.validate "python"
  s.javascript.validate "javascript"

end Settings

end SnippetRunner
