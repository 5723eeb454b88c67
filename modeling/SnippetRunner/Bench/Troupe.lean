import SnippetRunner.Runner.Basic

/-!
# Executors that follow instructions

Executors that run no worker at all: they fail as often as they are told, give code back as its
output, and note down what is done with them.
-/

namespace SnippetRunner.Bench

/-- An executor of this kind, and what it is told. -/
structure Actor where
  id : String
  phase : Adapter.Phase
  /-- How often making it is still to fail. -/
  failedConstructions : Nat
  /-- How often making it ready is still to fail. -/
  failedStarts : Nat
  /-- It is lost in every execution. -/
  crashes : Bool
  deriving DecidableEq, Repr

/-- Something that was done with an executor. -/
inductive Deed where
  | construct (id : String)
  | prepare (id : String)
  | execute (id code : String) (budget : Option Budget)
  | terminate (id : String)
  deriving DecidableEq, Repr

/-- Several executors, with what was done with them; the last thing stands first. -/
structure Troupe where
  actors : List Actor
  deeds : List Deed
  deriving DecidableEq, Repr

/-- The report on code that is its own output; code that begins with `throw` has a fault. -/
def Actor.perform (code : String) (b : Budget) : Report :=
  let output := ((Transcript.ofBudget b).write .stdout code).output
  let rest := code.toList.drop 6
  let fault := if code.toList.take 6 = "throw ".toList
    then some ((Fault.new (String.ofList rest)).withKind "Thrown") else none
  .completed output fault

namespace Troupe

/-- The executor of a language. -/
def actor? (t : Troupe) (id : String) : Option Actor := t.actors.find? fun a => a.id == id

/-- The executor of a language in another state. -/
def update (t : Troupe) (id : String) (f : Actor → Actor) : Troupe :=
  { t with actors := t.actors.map fun a => if a.id = id then f a else a }

/-- Something is noted down. -/
def note (t : Troupe) (d : Deed) : Troupe := { t with deeds := d :: t.deeds }

/-- An executor is made. -/
def construct (id : String) (t : Troupe) : Except Failure Unit × Troupe :=
  let t := t.note (.construct id)
  match t.actor? id with
  | some ⟨_, _, n + 1, _, _⟩ =>
    (.error (.initialization id "construct"), t.update id fun a => { a with failedConstructions := n })
  | _ => (.ok (), t)

/-- The state of an executor. -/
def phase (id : String) (t : Troupe) : Adapter.Phase :=
  ((t.actor? id).map Actor.phase).getD .uninitialized

/-- An executor is made ready. -/
def prepare (id : String) (t : Troupe) : Except Failure Unit × Troupe :=
  let t := t.note (.prepare id)
  match t.actor? id with
  | some ⟨_, _, _, n + 1, _⟩ =>
    (.error (.initialization id (Text.decimal n ++ " left")),
      t.update id fun a => { a with failedStarts := n })
  | _ => (.ok (), t.update id fun a => { a with phase := .ready })

/-- Code is executed, if the executor is ready. -/
def execute (id code : String) (budget : Option Budget) (t : Troupe) :
    Except Failure Report × Troupe :=
  let t := t.note (.execute id code budget)
  if phase id t = .ready then
    (.ok (Actor.perform code (budget.getD .standard)),
      t.update id fun a => { a with phase := if a.crashes then .uninitialized else .ready })
  else (.error (.notInitialized id), t)

/-- An executor is terminated. -/
def terminate (id : String) (t : Troupe) : Troupe :=
  (t.note (.terminate id)).update id fun a => { a with phase := .uninitialized }

/-- What can be done with them. -/
def executors : Executors Troupe := ⟨construct, phase, prepare, execute, terminate⟩

end Troupe

end SnippetRunner.Bench
