import SnippetRunner.Launch.System
import SnippetRunner.Path

/-!
# Launch plans

Everything that is needed to start a worker: its command, environment and files, the host paths it
may use, and the limits it runs under.
-/

namespace SnippetRunner.Launch

/-- What a worker may do with one host path. -/
structure Grant where
  path : Path
  writable : Bool
  executable : Bool
  deriving DecidableEq, Repr

/-- Reading and executing. -/
def Grant.readExecute (path : Path) : Grant := ⟨path, false, true⟩

/-- Reading only. -/
def Grant.read (path : Path) : Grant := ⟨path, false, false⟩

/-- Reading, executing and writing. -/
def Grant.write (path : Path) : Grant := ⟨path, true, true⟩

/-- A file that is written into the workspace before the worker starts. -/
structure PlacedFile where
  path : String
  content : List UInt8
  executable : Bool
  deriving DecidableEq, Repr

/-- An environment in the order of its names. -/
abbrev Environment := List (String × String)

/-- Gives a name its value, which replaces an earlier one. -/
def Environment.set (key value : String) : Environment → Environment
  | [] => [(key, value)]
  | (k, v) :: rest =>
    if key = k then (key, value) :: rest
    else if key < k then (key, value) :: (k, v) :: rest
    else (k, v) :: Environment.set key value rest

/-- A launch plan. -/
structure Plan where
  /-- The command and its arguments; the command has to be an absolute path. -/
  command : List String
  environment : Environment
  /-- The working directory, relative to the workspace. -/
  directory : String
  grants : List Grant
  files : List PlacedFile
  memoryLimit : Option Nat
  maxProcesses : Option Nat
  maxFileSize : Nat
  maxOpenFiles : Nat
  networkBlocked : Bool
  deriving DecidableEq, Repr

namespace Plan

/-- The environment of every worker on a system of this kind. -/
def baseEnvironment (k : SystemKind) : Environment :=
  [("LANG", "C.UTF-8"), ("LC_ALL", "C.UTF-8"), ("PATH", k.searchPath), ("USER", "sandbox")]

/-- The plan that runs a command in the directory `work`, with the base environment of a system that
has its programs in the standard directories. -/
def new (command : List String) : Plan :=
  ⟨command, baseEnvironment .standard, "work", [], [], none, none, 16 * 1024 * 1024, 256, true⟩

/-- The plan with one more environment entry. -/
def withEnv (p : Plan) (key value : String) : Plan :=
  { p with environment := p.environment.set key value }

/-- The plan with one more granted path. -/
def withGrant (p : Plan) (g : Grant) : Plan := { p with grants := p.grants ++ [g] }

/-- The plan with one more file. -/
def withFile (p : Plan) (path : String) (content : List UInt8) (executable : Bool) : Plan :=
  { p with files := p.files ++ [⟨path, content, executable⟩] }

end Plan

/-- The limits that the kernel enforces on a worker. There is none on processor time: a worker
lives across many executions, and the host watches the clock. -/
structure Limits where
  data : Option Nat
  fileSize : Nat
  openFiles : Nat
  processes : Option Nat
  deriving DecidableEq, Repr

/-- The limits of a plan. -/
def Plan.limits (p : Plan) : Limits := ⟨p.memoryLimit, p.maxFileSize, p.maxOpenFiles, p.maxProcesses⟩

end SnippetRunner.Launch
