import SnippetRunner.Time.Span

/-!
# Deadlines

An operation and a timer compete; whichever is first wins, and a tie goes to the operation. A
deadline is a timer that several operations share, one after the other.

Time is that of a clock which moves only by what is waited for. Alarms go off at whole milliseconds
of the clock, never before the time that was asked for.
-/

namespace SnippetRunner

/-- A clock, by the nanoseconds since it was started. -/
structure Clock where
  nanos : Nat
  deriving DecidableEq, Repr, Inhabited

namespace Clock

/-- The whole milliseconds on the clock. -/
def tick (c : Clock) : Nat := c.nanos / 1000000

/-- The clock after a span of time. -/
def advance (c : Clock) (s : Span) : Clock := ⟨c.nanos + s.nanos⟩

/-- The millisecond at which an alarm set now for a span of time goes off. -/
def alarm (c : Clock) (s : Span) : Nat := max c.tick ((c.nanos + s.nanos + 999999) / 1000000)

/-- The clock when an alarm goes off that was set for this millisecond. -/
def untilTick (c : Clock) (t : Nat) : Clock := ⟨c.nanos + (t - c.tick) * 1000000⟩

end Clock

/-- How a race ended. -/
inductive Raced where
  /-- The operation was done first. -/
  | completed
  /-- The timer was first, and the operation was given up. -/
  | expired
  deriving DecidableEq, Repr

/-- The race of an operation against a timer, with the clock at its end. The operation takes the
given time, none at all if that is zero, or never ends. -/
def race (c : Clock) (work : Option Span) (limit : Span) : Raced × Clock :=
  match work with
  | none => (.expired, c.untilTick (c.alarm limit))
  | some w =>
    if w.nanos = 0 then (.completed, c)
    else if c.alarm w ≤ c.alarm limit then (.completed, c.untilTick (c.alarm w))
    else (.expired, c.untilTick (c.alarm limit))

/-- A timer that was started at some moment. -/
structure Deadline where
  start : Clock
  timeout : Span
  deriving DecidableEq, Repr

namespace Deadline

/-- The deadline that is this far away now. -/
def after (c : Clock) (timeout : Span) : Deadline := ⟨c, timeout⟩

/-- The time since the start. -/
def elapsed (d : Deadline) (c : Clock) : Span := ⟨c.nanos - d.start.nanos⟩

/-- The time that is left. -/
def remaining (d : Deadline) (c : Clock) : Span := d.timeout.minus (d.elapsed c)

/-- No time is left. -/
def isExpired (d : Deadline) (c : Clock) : Bool := d.timeout.nanos ≤ (d.elapsed c).nanos

/-- The race of an operation against what is left of the time. -/
def race (d : Deadline) (c : Clock) (work : Option Span) : Raced × Clock :=
  SnippetRunner.race c work (d.remaining c)

end Deadline

end SnippetRunner
