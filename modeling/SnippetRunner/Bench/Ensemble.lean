import SnippetRunner.Bench.Rehearsal
import SnippetRunner.Interpreter.Runtime
import SnippetRunner.Runner.Basic

/-!
# The built-in languages in rehearsal

The adapters of the built-in languages over the interpreters of a stage. What an interpreter told
about itself is known to all of them.
-/

namespace SnippetRunner.Bench

/-- The adapters by language, and what is known of interpreters. -/
structure Ensemble where
  adapters : List (String × Rehearsal)
  cache : Interpreter.Cache

namespace Ensemble

/-- The adapter of a language under some settings. -/
def rehearse (stage : Stage) (host : Interpreter.Host) (s : Settings) (r : Interpreter.Runtime) :
    String × Rehearsal :=
  (r.language.id, .new stage r.language.id s.budget (.ofMillis s.startMillis) fun _ c =>
    match r.plan host c with
    | (.error e, c) => (.error e, c)
    | (.ok plan, c) => (.ok ⟨plan, none⟩, c))

/-- The adapters of the built-in languages; the driver files are empty. -/
def new (stage : Stage) (host : Interpreter.Host) (s : Settings) : Ensemble :=
  ⟨[rehearse stage host s (Interpreter.pythonRuntime s.python []),
    rehearse stage host s (Interpreter.nodeRuntime s.javascript [])], .empty⟩

/-- The adapter of a language. -/
def adapter? (e : Ensemble) (id : String) : Option Rehearsal :=
  (e.adapters.find? fun a => a.1 == id).map Prod.snd

/-- A job is carried out on the adapter of a language. -/
def perform (e : Ensemble) (id : String) (job : Job) : Outcome × Ensemble :=
  match e.adapter? id with
  | none => (.nothing, e)
  | some r =>
    let (outcome, r) := { r with cache := e.cache }.performOne job
    (outcome, ⟨e.adapters.map fun a => if a.1 = id then (id, r) else a, r.cache⟩)

/-- The state of the adapter of a language. -/
def phase (e : Ensemble) (id : String) : Adapter.Phase :=
  ((e.adapter? id).map fun r => r.adapter.state.phase).getD .uninitialized

/-- What can be done with the adapters. -/
def executors : Executors Ensemble where
  construct := fun _ e => (.ok (), e)
  phase := fun id e => e.phase id
  prepare := fun id e =>
    match e.perform id .prepare with
    | (.initialized r, e) => (r, e)
    | (_, e) => (.error (.notInitialized id), e)
  execute := fun id code budget e =>
    match e.perform id (.execute code budget) with
    | (.executed r, e) => (r, e)
    | (_, e) => (.error (.notInitialized id), e)
  terminate := fun id e => (e.perform id (.terminate 0)).2

end Ensemble

end SnippetRunner.Bench
