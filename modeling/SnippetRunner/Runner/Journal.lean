import SnippetRunner.Runner.Basic

/-!
# Operations on a runner, and their journal

What callers ask of a runner, one thing after the other, and what comes of it for the executors: every
construction, preparation, execution and termination in its order, with how it came out.
-/

namespace SnippetRunner

variable {World : Type}

namespace Runner

/-- Something that is asked of a runner. -/
inductive Operation where
  /-- By the clock of the runner, the execution takes so long. -/
  | execute (identifier code : String) (budget : Option Budget) (elapsed : Span)
  | prewarm (identifier : String)
  | resolve (identifier : String)
  | terminate (identifier : String)
  | terminateAll
  deriving DecidableEq, Repr

/-- What an operation returns. -/
inductive Reply where
  | executed (r : Except Failure Report)
  | done (r : Except Failure Unit)
  | resolved (r : Except Failure (Language × ExecutorId))

/-- An operation is carried out. -/
def perform (x : Executors World) (r : Runner World) : Operation → Reply × Runner World
  | .execute identifier code budget elapsed =>
    let (reply, r) := r.execute x identifier code budget elapsed
    (.executed reply, r)
  | .prewarm identifier =>
    let (reply, r) := r.prewarm x identifier
    (.done reply, r)
  | .resolve identifier =>
    let (reply, r) := r.resolve x identifier
    (.resolved reply, r)
  | .terminate identifier =>
    let (reply, r) := r.terminate x identifier
    (.done reply, r)
  | .terminateAll => (.done (.ok ()), r.terminateAll x)

/-- The runner after some operations. -/
def after (x : Executors World) (r : Runner World) (ops : List Operation) : Runner World :=
  ops.foldl (fun r o => (r.perform x o).2) r

/-- Something that is done with the executor of a language, and how it came out. -/
inductive Deed where
  | construct (id : String) (result : Except Failure Unit)
  | prepare (id : String) (result : Except Failure Unit)
  /-- The executor was found in one state, and left in another one. -/
  | execute (id code : String) (budget : Option Budget) (found left : Adapter.Phase)
      (result : Except Failure Report)
  | terminate (id : String)

end Runner

/-- The same executors, with a journal of what is done with them. -/
def Executors.recorded (x : Executors World) : Executors (World × List Runner.Deed) where
  construct := fun id (w, journal) =>
    let (result, w) := x.construct id w
    (result, w, journal ++ [.construct id result])
  phase := fun id (w, _) => x.phase id w
  prepare := fun id (w, journal) =>
    let (result, w) := x.prepare id w
    (result, w, journal ++ [.prepare id result])
  execute := fun id code budget (w, journal) =>
    let (result, after) := x.execute id code budget w
    (result, after,
      journal ++ [.execute id code budget (x.phase id w) (x.phase id after) result])
  terminate := fun id (w, journal) => (x.terminate id w, journal ++ [.terminate id])

/-- What a new runner does with its executors in some operations. -/
def Executors.journal (x : Executors World) (catalog : Catalog) (w : World)
    (ops : List Runner.Operation) : List Runner.Deed :=
  ((Runner.new catalog (w, [])).after x.recorded ops).world.2

end SnippetRunner
