import SnippetRunner.Files.Workspace
import SnippetRunner.Launch.Check

/-!
# Starting workers

A worker is started from a plan in a fixed order: the plan is checked, a workspace is made, the files of the
plan are written into it, what will confine the worker is prepared, and the process is run. What the system
does in each of these steps is left open.
-/

namespace SnippetRunner.Launch

/-- Why a worker was not started, with the causes that a system has for not confining it. -/
inductive StartFailure (Denial : Type) where
  | refused (r : Refusal)
  | workspace (e : FileError)
  | lockdown (d : Denial)
  | command (binary : String) (e : FileError)
  deriving DecidableEq, Repr

/-- The failure in words, with those that the system has for its own causes. -/
def StartFailure.message {Denial : Type} (words : Denial → String) : StartFailure Denial → String
  | .refused r => "validation: " ++ r.message
  | .workspace e => "workspace: " ++ e.message
  | .lockdown d => "lockdown: " ++ words d
  | .command binary e => "spawn " ++ binary ++ ": " ++ e.message

/-- A process that is to be run. -/
structure Order where
  binary : String
  arguments : List String
  environment : Environment
  directory : Path
  deriving DecidableEq, Repr

/-- The process of a plan. Its home and its place for temporary files are in the workspace, whatever the
plan says. -/
def Plan.order (p : Plan) (w : Files.Workspace) : Order where
  binary := p.command.head?.getD ""
  arguments := p.command.drop 1
  environment := (p.environment.set "HOME" (w.root.child "home").display).set "TMPDIR"
    (w.root.child "tmp").display
  directory := w.root.child p.directory

/-- What a system does for a new worker. -/
structure Starter (m : Type → Type) (Denial Lock Worker : Type) where
  makeWorkspace : ExceptT FileError m Files.Workspace
  writeFile : Files.Workspace → PlacedFile → ExceptT FileError m Unit
  /-- Prepares what the plan confines the worker to. -/
  lockDown : Plan → Files.Workspace → ExceptT Denial m Lock
  run : Files.Workspace → Order → Lock → ExceptT FileError m Worker

/-- Starts a worker from a plan. -/
def start {m : Type → Type} [Monad m] {Denial Lock Worker : Type}
    (s : Starter m Denial Lock Worker) (p : Plan) : ExceptT (StartFailure Denial) m Worker := do
  match check p with
  | .error r => throw (.refused r)
  | .ok () =>
    let w ← s.makeWorkspace.adapt .workspace
    for f in p.files do
      (s.writeFile w f).adapt .workspace
    let lock ← (s.lockDown p w).adapt .lockdown
    (s.run w (p.order w) lock).adapt (.command (p.order w).binary)

end SnippetRunner.Launch
