import SnippetRunner.Runner.Slot

/-!
# Cells

What a runner relies on when several callers ask for one executor at once: a cell that holds it,
whatever else it keeps. A cell lets one caller at a time make the executor. Slots are such cells; which
caller is the next one after a failure is up to the cell.
-/

namespace SnippetRunner.Runner

/-- A cell with a state of some type. -/
structure Cell (σ : Type) where
  empty : σ
  executor : σ → Option ExecutorId
  /-- The callers that have asked and have no reply. -/
  callers : σ → List CallerId
  /-- The one of them whose turn it is to make the executor. -/
  maker : σ → Option CallerId
  /-- A caller asks for the executor: it is there, or the caller has to wait for its turn. -/
  ask : σ → CallerId → Option ExecutorId × σ
  /-- The maker has come to an end: the replies that callers get, and the cell after them. -/
  settle : σ → Except Failure ExecutorId → List (CallerId × Except Failure ExecutorId) × σ

/-- As long as there are callers, it is the turn of one of them. -/
def Cell.Led {σ : Type} (x : Cell σ) (a : σ) : Prop :=
  (∀ c, x.maker a = some c → c ∈ x.callers a) ∧ (x.maker a = none → x.callers a = [])

/-- A cell makes one attempt at a time. What has been made is for all who ask. A failure is the reply to
the caller that has made the attempt, and one of the others makes the next attempt. -/
structure Cell.Lawful {σ : Type} (x : Cell σ) : Prop where
  executor_empty : x.executor x.empty = none
  callers_empty : x.callers x.empty = []
  maker_empty : x.maker x.empty = none
  ask_of_there {a : σ} {e : ExecutorId} (c : CallerId) : x.executor a = some e → x.ask a c = (some e, a)
  ask_of_missing {a : σ} (c : CallerId) : x.executor a = none →
    (x.ask a c).1 = none ∧ x.executor (x.ask a c).2 = none ∧
      (x.callers (x.ask a c).2).Perm (c :: x.callers a) ∧
      x.maker (x.ask a c).2 = some ((x.maker a).getD c)
  settle_ok {a : σ} {c : CallerId} (e : ExecutorId) : x.maker a = some c →
    (x.settle a (.ok e)).1 = (x.callers a).map (fun d => (d, .ok e)) ∧
      x.executor (x.settle a (.ok e)).2 = some e ∧ x.callers (x.settle a (.ok e)).2 = [] ∧
      x.maker (x.settle a (.ok e)).2 = none
  settle_error {a : σ} {c : CallerId} (f : Failure) : x.maker a = some c →
    (x.settle a (.error f)).1 = [(c, .error f)] ∧ x.executor (x.settle a (.error f)).2 = none ∧
      (x.callers a).Perm (c :: x.callers (x.settle a (.error f)).2) ∧
      x.Led (x.settle a (.error f)).2

/-- A slot is a cell. The callers take turns in the order in which they have come. -/
def Slot.cell : Cell Slot where
  empty := .empty
  executor := Slot.executor
  callers s := s.maker.toList ++ s.queue
  maker := Slot.maker
  ask := Slot.ask
  settle := Slot.settle

end SnippetRunner.Runner
