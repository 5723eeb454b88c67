import SnippetRunner.Failure

/-!
# Slots

A slot holds the one executor of a language. It is filled by the first caller that needs it; callers
that come meanwhile wait for it, and the next of them tries if it fails. Once filled, a slot keeps
its executor.
-/

namespace SnippetRunner.Runner

/-- The number of an executor, in the order in which they were made. -/
abbrev ExecutorId := Nat

/-- The number of a caller. -/
abbrev CallerId := Nat

/-- The slot of a language. -/
structure Slot where
  executor : Option ExecutorId
  /-- The caller that makes the executor. -/
  maker : Option CallerId
  /-- The callers that wait for it, the next one first. -/
  queue : List CallerId
  deriving DecidableEq, Repr

namespace Slot

/-- A slot that nobody has asked for. -/
def empty : Slot := ⟨none, none, []⟩

/-- A caller asks for the executor: it is there, or the caller makes it, or waits for the one that
does. -/
def ask (s : Slot) (c : CallerId) : Option ExecutorId × Slot :=
  match s.executor with
  | some e => (some e, s)
  | none =>
    (none, if s.maker.isNone then { s with maker := some c } else { s with queue := s.queue ++ [c] })

/-- The maker has come to an end: the replies that callers get, and the slot after them. An executor
is for all who wait; a failure is the maker's alone, and the next caller in line makes another
attempt. -/
def settle (s : Slot) (r : Except Failure ExecutorId) :
    List (CallerId × Except Failure ExecutorId) × Slot :=
  match s.maker, r with
  | none, _ => ([], s)
  | some c, .ok e => ((c :: s.queue).map fun d => (d, .ok e), ⟨some e, none, []⟩)
  | some c, .error f => ([(c, .error f)], ⟨none, s.queue.head?, s.queue.tail⟩)

end Slot

end SnippetRunner.Runner
