import SnippetRunner.Adapter.Basic
import SnippetRunner.Language.Catalog
import SnippetRunner.Runner.Slot
import SnippetRunner.Snippet.Report

/-!
# Running snippets in any language

The front of the library: code goes to the executor of the language that an identifier addresses. An
executor is made when it is first needed and kept from then on, and it is prepared before an
execution if it is not ready. Code of blanks alone needs no executor.
-/

namespace SnippetRunner

/-- What can be done with the executors of the languages, each addressed by the id of its language,
in a world that these actions change. -/
structure Executors (World : Type) where
  /-- The executor is made. -/
  construct : String → World → Except Failure Unit × World
  phase : String → World → Adapter.Phase
  /-- The executor is made ready. -/
  prepare : String → World → Except Failure Unit × World
  execute : String → String → Option Budget → World → Except Failure Report × World
  terminate : String → World → World

/-- A catalog with the executors that have been made, and the world that they act on. -/
structure Runner (World : Type) where
  catalog : Catalog
  /-- The slots of the languages that somebody has asked for. -/
  slots : List (String × Runner.Slot)
  /-- How many executors have been made. -/
  made : Nat
  world : World

namespace Runner

variable {World : Type}

/-- A runner that has made no executor. -/
def new (catalog : Catalog) (world : World) : Runner World := ⟨catalog, [], 0, world⟩

/-- The slot of a language. -/
def slot (r : Runner World) (id : String) : Slot :=
  ((r.slots.find? fun e => e.1 == id).map Prod.snd).getD .empty

/-- The runner with the slot of a language in another state. -/
def setSlot (r : Runner World) (id : String) (s : Slot) : Runner World :=
  { r with slots := (r.slots.filter fun e => e.1 != id) ++ [(id, s)] }

/-- The caller of everything that is done one after the other. -/
def soleCaller : CallerId := 0

/-- The executor of the language that an identifier addresses, which is made if it is not there. -/
def resolve (x : Executors World) (r : Runner World) (identifier : String) :
    Except Failure (Language × ExecutorId) × Runner World :=
  match r.catalog.find identifier with
  | .error e => (.error e, r)
  | .ok l =>
    match (r.slot l.id).ask soleCaller with
    | (some e, _) => (.ok (l, e), r)
    | (none, slot) =>
      match x.construct l.id r.world with
      | (.error e, world) => (.error e, { r with world }.setSlot l.id (slot.settle (.error e)).2)
      | (.ok (), world) =>
        (.ok (l, r.made),
          { r with world, made := r.made + 1 }.setSlot l.id (slot.settle (.ok r.made)).2)

/-- The language that an identifier addresses, if its executor has been made. -/
def loaded (r : Runner World) (identifier : String) : Except Failure (Option Language) := do
  let l ← r.catalog.find identifier
  pure (if (r.slot l.id).executor.isSome then some l else none)

/-- Executes code. Code of blanks alone has the empty report, if there is such a language; otherwise
the first of these that fails decides: the budget, the language, its executor, the start. The report
of the executor gets the time that the execution has taken by the clock of the runner, which is none
where this clock stands still. -/
def execute (x : Executors World) (r : Runner World) (identifier code : String)
    (budget : Option Budget) (elapsed : Span := .zero) : Except Failure Report × Runner World :=
  if Text.allBlank code then ((r.catalog.find identifier).map fun _ => Report.empty, r)
  else match budget.elim (.ok ()) Budget.validate with
    | .error e => (.error e, r)
    | .ok () =>
      match r.resolve x identifier with
      | (.error e, r) => (.error e, r)
      | (.ok (l, _), r) =>
        let (ready, world) :=
          if x.phase l.id r.world = .ready then (.ok (), r.world) else x.prepare l.id r.world
        match ready with
        | .error e => (.error e, { r with world })
        | .ok () =>
          let (report, world) := x.execute l.id code budget world
          (report.map fun q => q.taking elapsed, { r with world })

/-- Makes the executor of a language ready ahead of its first execution. -/
def prewarm (x : Executors World) (r : Runner World) (identifier : String) :
    Except Failure Unit × Runner World :=
  match r.resolve x identifier with
  | (.error e, r) => (.error e, r)
  | (.ok (l, _), r) =>
    let (ready, world) := x.prepare l.id r.world
    (ready, { r with world })

/-- Executes code on the executor of a language as it is. -/
def executeDirectly (x : Executors World) (r : Runner World) (identifier code : String)
    (budget : Option Budget) : Except Failure Report × Runner World :=
  match r.resolve x identifier with
  | (.error e, r) => (.error e, r)
  | (.ok (l, _), r) =>
    let (report, world) := x.execute l.id code budget r.world
    (report, { r with world })

/-- The state of the executor of a language. -/
def phase (x : Executors World) (r : Runner World) (identifier : String) :
    Except Failure Adapter.Phase × Runner World :=
  match r.resolve x identifier with
  | (.error e, r) => (.error e, r)
  | (.ok (l, _), r) => (.ok (x.phase l.id r.world), r)

/-- Terminates the executor of a language; where none has been made there is nothing to do. -/
def terminate (x : Executors World) (r : Runner World) (identifier : String) :
    Except Failure Unit × Runner World :=
  match r.loaded identifier with
  | .error e => (.error e, r)
  | .ok none => (.ok (), r)
  | .ok (some l) => (.ok (), { r with world := x.terminate l.id r.world })

/-- Terminates all executors that have been made, in the order of the catalog. -/
def terminateAll (x : Executors World) (r : Runner World) : Runner World :=
  { r with
    world := (r.catalog.languages.filter fun l => (r.slot l.id).executor.isSome).foldl
      (fun w l => x.terminate l.id w) r.world }

end Runner

end SnippetRunner
