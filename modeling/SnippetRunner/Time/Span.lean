import SnippetRunner.Text.Decimal

/-!
# Spans of time

A span is a whole number of nanoseconds. Outside this library it is written in whole milliseconds,
which drops the finer part and stops at the greatest 64-bit number.
-/

namespace SnippetRunner

/-- A length of time, in nanoseconds. -/
structure Span where
  nanos : Nat
  deriving DecidableEq, Repr, Inhabited

namespace Span

/-- No time at all. -/
def zero : Span := ⟨0⟩

/-- A span of whole milliseconds. -/
def ofMillis (ms : Nat) : Span := ⟨ms * 1000000⟩

/-- A span of whole seconds and some nanoseconds. -/
def ofSeconds (seconds nanos : Nat) : Span := ⟨seconds * 1000000000 + nanos⟩

/-- The whole milliseconds in a span. -/
def millis (s : Span) : Nat := s.nanos / 1000000

/-- The whole milliseconds in a span, as far as 64 bits hold them. -/
def millisCapped (s : Span) : Nat := min s.millis Text.maxWord

/-- A span as it survives being written: its whole milliseconds, capped. -/
def written (s : Span) : Span := ofMillis s.millisCapped

/-- What is left of a span after another one, or nothing. -/
def minus (a b : Span) : Span := ⟨a.nanos - b.nanos⟩

/-- Both spans one after the other. -/
def plus (a b : Span) : Span := ⟨a.nanos + b.nanos⟩

@[simp] theorem millis_ofMillis (ms : Nat) : (ofMillis ms).millis = ms := by
  simp [millis, ofMillis]

@[simp] theorem nanos_zero : zero.nanos = 0 := rfl

end Span

end SnippetRunner
