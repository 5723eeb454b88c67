import SnippetRunner.Language.Catalog
import SnippetRunner.Runner.Cell
import SnippetRunner.Table

/-!
# Calls for executors side by side

Any number of callers may ask for executors at once, each by any name of a language. A call whose
language has no executor gets in line at the cell of the language. When it is its turn it makes the
executor, which takes as long as it takes, and other calls take their steps meanwhile. A call that has
its reply returns with it at a time of its own.
-/

namespace SnippetRunner.Runner

/-- Where a call stands that has not returned. -/
inductive Call where
  /-- It is in line for the executor of its language. -/
  | waiting (l : Language)
  /-- It makes the executor. -/
  | making (l : Language)
  /-- It has its reply. -/
  | answered (r : Except Failure (Language × ExecutorId))

/-- The call with a reply, unless it has one. -/
def Call.answer (r : Except Failure ExecutorId) : Call → Call
  | .waiting l | .making l => .answered (r.map fun e => (l, e))
  | .answered r => .answered r

/-- The calls after one of them has got a reply. -/
def reply (calls : Table CallerId Call) (c : CallerId) (r : Except Failure ExecutorId) :
    Table CallerId Call :=
  match calls.get? c with
  | some k => calls.set c (k.answer r)
  | none => calls

/-- Languages with their cells, and the calls under way. -/
structure Front (σ : Type) where
  catalog : Catalog
  /-- The cells of the languages that somebody has asked for. -/
  cells : Table String σ
  /-- How many executors have been made. -/
  made : Nat
  calls : Table CallerId Call
  /-- How many calls there have been; the next one has this number. -/
  asked : Nat

namespace Front

/-- What happens next. -/
inductive Label where
  /-- Somebody asks for the executor of a language. -/
  | resolve (identifier : String)
  /-- The call whose turn it is begins to make the executor. -/
  | begin (c : CallerId)
  /-- The executor has been made, or the attempt has failed. -/
  | finish (c : CallerId) (result : Except Failure Unit)
  /-- A call returns with its reply. -/
  | wake (c : CallerId)
  /-- Somebody looks whether the executor of a language is there. -/
  | loaded (identifier : String)

/-- What is seen of a step. -/
inductive Event where
  | asked (c : CallerId) (identifier : String)
  | begun (c : CallerId) (l : Language)
  | ended (c : CallerId) (l : Language) (result : Except Failure ExecutorId)
  | returned (c : CallerId) (reply : Except Failure (Language × ExecutorId))
  | loaded (identifier : String) (executor : Except Failure (Option ExecutorId))

variable {σ : Type}

/-- No executor, and no calls. -/
def new (catalog : Catalog) : Front σ := ⟨catalog, .empty, 0, .empty, 0⟩

/-- Where a call stands. -/
def call? (s : Front σ) (c : CallerId) : Option Call := s.calls.get? c

/-- The same with a call in another place. -/
def setCall (s : Front σ) (c : CallerId) (k : Call) : Front σ :=
  { s with calls := s.calls.set c k }

/-- The same with a new call. -/
def enter (s : Front σ) (k : Call) : Front σ :=
  { s with calls := s.calls.set s.asked k, asked := s.asked + 1 }

/-- The same without a call that returns. -/
def leave (s : Front σ) (c : CallerId) : Front σ := { s with calls := s.calls.erase c }

/-- The same with the cell of a language in another state. -/
def setCell (s : Front σ) (id : String) (a : σ) : Front σ := { s with cells := s.cells.set id a }

variable (x : Cell σ)

/-- The cell of a language. -/
def cell (s : Front σ) (id : String) : σ := (s.cells.get? id).getD x.empty

/-- A new call finds the executor of its language, or gets in line for it. -/
def ask (s : Front σ) (identifier : String) : Front σ :=
  match s.catalog.find identifier with
  | .error f => s.enter (.answered (.error f))
  | .ok l =>
    match x.ask (s.cell x l.id) s.asked with
    | (some e, _) => s.enter (.answered (.ok (l, e)))
    | (none, a) => (s.setCell l.id a).enter (.waiting l)

/-- An attempt to make the executor of a language has come to its end: the cell tells who gets which
reply. -/
def settle (s : Front σ) (l : Language) (result : Except Failure Unit) : Front σ :=
  let (replies, a) := x.settle (s.cell x l.id) (result.map fun _ => s.made)
  { s with
    cells := s.cells.set l.id a
    made := if result.isOk then s.made + 1 else s.made
    calls := replies.foldl (fun calls r => reply calls r.1 r.2) s.calls }

/-- The executor of the language that an identifier addresses, if it has been made. -/
def executor? (s : Front σ) (identifier : String) : Except Failure (Option ExecutorId) :=
  (s.catalog.find identifier).map fun l => x.executor (s.cell x l.id)

/-- One step, with what is seen of it. A label that does not fit is refused. -/
def step (s : Front σ) : Label → Option (Front σ × Event)
  | .resolve identifier => some (s.ask x identifier, .asked s.asked identifier)
  | .begin c =>
    match s.call? c with
    | some (.waiting l) =>
      if x.maker (s.cell x l.id) = some c then some (s.setCall c (.making l), .begun c l) else none
    | _ => none
  | .finish c result =>
    match s.call? c with
    | some (.making l) =>
      some (s.settle x l result, .ended c l (result.map fun _ => s.made))
    | _ => none
  | .wake c =>
    match s.call? c with
    | some (.answered r) => some (s.leave c, .returned c r)
    | _ => none
  | .loaded identifier => some (s, .loaded identifier (s.executor? x identifier))

/-- The history of a run, and what it comes to, unless a label is refused. -/
def trace (s : Front σ) : List Label → Option (List Event × Front σ)
  | [] => some ([], s)
  | l :: ls =>
    (s.step x l).bind fun p => (p.1.trace ls).map fun q => (p.2 :: q.1, q.2)

/-- A run, with what is seen of its steps; the first one stands first. -/
inductive Traces (s : Front σ) : List Event → Front σ → Prop where
  | refl : Traces s [] s
  | next {h : List Event} {s₁ s₂ : Front σ} {l : Label} {ev : Event} (run : Traces s h s₁)
    (step : s₁.step x l = some (s₂, ev)) : Traces s (h ++ [ev]) s₂

end Front

end SnippetRunner.Runner
