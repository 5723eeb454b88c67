import SnippetRunner.Time.Deadline

/-!
# Races as they are polled

A race gets on only when it is polled. Each time it asks the operation first and the timer after that, so
that a tie goes to the operation. As soon as one of them is ready the race is over: the other one is given
up, and if it was the timer that was ready, whatever the operation drives is stopped.
-/

namespace SnippetRunner

/-- How a race came out, with what the operation gave. -/
inductive Outcome (α : Type) where
  | completed (value : α)
  | timedOut
  deriving DecidableEq, Repr

/-- A race that is polled. -/
structure Contest (α : Type) where
  /-- What the operation gives when it is asked at some time, if it is ready. -/
  operation : Clock → Option α
  /-- When the timer goes off. -/
  due : Clock
  /-- The outcome, once there is one. -/
  outcome : Option (Outcome α)
  /-- How many times the operation was stopped since the timer went off. -/
  stops : Nat

/-- What an operation gives that takes some time from now on, or never ends. -/
def Clock.takes {α : Type} (c : Clock) (work : Option Span) (value : α) (now : Clock) : Option α :=
  match work with
  | none => none
  | some w => if (c.advance w).nanos ≤ now.nanos then some value else none

namespace Contest

variable {α : Type}

/-- A race that begins now. -/
def begin (c : Clock) (operation : Clock → Option α) (limit : Span) : Contest α :=
  ⟨operation, c.advance limit, none, 0⟩

/-- The race is polled. A race that is over is left alone. -/
def poll (k : Contest α) (now : Clock) : Contest α :=
  match k.outcome with
  | some _ => k
  | none =>
    match k.operation now with
    | some value => { k with outcome := some (.completed value) }
    | none =>
      if k.due.nanos ≤ now.nanos then
        { k with outcome := some .timedOut, stops := k.stops + 1 }
      else k

/-- The race is polled at each of these times. -/
def polls (k : Contest α) (times : List Clock) : Contest α := times.foldl poll k

end Contest

/-- The race of an operation against what is left of the time, as it is polled. -/
def Deadline.contest {α : Type} (d : Deadline) (c : Clock) (operation : Clock → Option α) : Contest α :=
  .begin c operation (d.remaining c)

end SnippetRunner
