import SnippetRunner.Bench.Player
import SnippetRunner.Launch.Start

/-!
# Starting rehearsed processes

A launch plan becomes a process on the stage: the plan is checked, a workspace is made and filled,
and the command is looked up. A process that follows a script takes the place of the command.
-/

namespace SnippetRunner.Bench

/-- Why a rehearsed process could not be started. Nothing keeps a stage from confining one. -/
abbrev SpawnFailure := Launch.StartFailure Empty

/-- The failure in words. -/
def SpawnFailure.message (e : SpawnFailure) : String := Launch.StartFailure.message nofun e

/-- Where the workspaces of rehearsed processes stand. -/
def workspaceRoot : Path := .ofText "/tmp/snippet-Ab12Cd"

/-- A command of the shell made up of these words. -/
def plainCommand (words : List String) : Command :=
  ⟨.always, words.map fun s => .word [.text true s.toList], false⟩

/-- What the shell runs when it is started with these arguments. -/
def shellScript (t : Files.Tree) (args : List String) : Running :=
  match args with
  | "-c" :: script :: rest => ⟨Command.ofText script, rest.drop 1⟩
  | file :: rest =>
    match t.readText (.ofText file) with
    | .ok s => ⟨Command.ofText s, rest⟩
    | .error _ => ⟨[plainCommand ["exit", "2"]], rest⟩
  | [] => ⟨[plainCommand ["cat"]], []⟩

/-- The worker that an interpreter made to order becomes when it runs a driver. -/
def Interpreter.worker (i : Interpreter) : Script :=
  ⟨[.ready (.text "1.0")], i.requests.map fun bytes => [.raw bytes], [.exit 7]⟩

/-- The process that a command starts in its surroundings. -/
def begin (around : Surroundings) (binary : String) (args : List String) : Except FileError Player :=
  let script (s : String) : Player := .ofShell around ⟨Command.ofText s, args⟩
  match around.stage.executable around.tree (.ofText binary) with
  | .error .execFormat => (around.tree.readText (.ofText binary)).map script
  | .error e => .error e
  | .ok (.interpreter i) => .ok (.ofScript around i.worker)
  | .ok (.script s) => .ok (script s)
  | .ok (.program place) =>
    if place = Stage.shell then .ok (.ofShell around (shellScript around.tree args))
    else
      let name := Text.decodeLossy (place.getLast?.getD [])
      .ok (.ofShell around ⟨[plainCommand (name :: args)], []⟩)

/-- Something that may change the files. -/
def onTree {α : Type} (act : Files.Tree → Except FileError (α × Files.Tree)) :
    ExceptT FileError (StateM Files.Tree) α :=
  fun t => match act t with
    | .ok (a, t) => (.ok a, t)
    | .error e => (.error e, t)

/-- What a stage does for a new worker. Nothing confines it but its limits, which are kept for it. -/
def starter (s : Stage) (script : Option Script) :
    Launch.Starter (StateM Files.Tree) Empty Launch.Limits Player where
  makeWorkspace := onTree (Files.Workspace.create workspaceRoot)
  writeFile := fun w f => onTree fun t => do
    let (_, t) ← w.writeFile t f.path f.content f.executable
    .ok ((), t)
  lockDown := fun p _ => pure p.limits
  run := fun w order limits => onTree fun t => do
    match ← t.locate order.directory with
    | (place, .directory) =>
      let around : Surroundings := ⟨s, { t with working := place }, w, order.directory,
        order.environment, order.arguments, limits⟩
      let player ← match script with
        | some script => .ok (.ofScript around script)
        | none => begin around order.binary order.arguments
      .ok (player, t)
    | _ => .error .notADirectory

/-- Starts a process under a plan. -/
def spawn (s : Stage) (p : Launch.Plan) (script : Option Script) :
    Except SpawnFailure Player :=
  ((Launch.start (starter s script) p).run.run s.tree).1

end SnippetRunner.Bench
