import SnippetRunner.Failure

/-!
# Adapters

An adapter keeps one worker for a language. Its state changes only in short sections that run one at
a time, and each section is a function here: entering and leaving a start, taking the worker out for
an execution and bringing it back, and terminating. A generation number tells work that is still
wanted from work that a termination has overtaken, and a token per generation tells that work to
stop.
-/

namespace SnippetRunner.Adapter

/-- The state of an adapter, as others see it. -/
inductive Phase where
  | uninitialized
  | initializing
  | ready
  | executing
  /-- Passed through while terminating, and never seen. -/
  | terminated
  deriving DecidableEq, Repr

/-- The name of a state. -/
def Phase.name : Phase → String
  | .uninitialized => "uninitialized"
  | .initializing => "initializing"
  | .ready => "ready"
  | .executing => "executing"
  | .terminated => "terminated"

/-- The states in their order. -/
def Phase.all : List Phase := [.uninitialized, .initializing, .ready, .executing, .terminated]

/-- The number of a worker, in the order in which they were started. -/
abbrev WorkerId := Nat

/-- What a call remembers of the moment when its work began. -/
structure Ticket where
  generation : Nat
  token : Nat
  deriving DecidableEq, Repr

/-- The state of an adapter. -/
structure State where
  phase : Phase
  generation : Nat
  /-- The worker that waits for a request. -/
  worker : Option WorkerId
  /-- The worker that a termination kills. -/
  kill : Option WorkerId
  /-- The token of the present generation. -/
  token : Nat
  /-- The tokens whose work is to stop. -/
  cancelled : List Nat
  /-- How many starts have begun. -/
  attempts : Nat
  /-- How the last start ended. -/
  lastStart : Option (Except Failure Unit)

namespace State

/-- A new adapter. -/
def new : State := ⟨.uninitialized, 0, none, none, 0, [], 0, none⟩

/-- The work with this ticket is to stop. -/
def isCancelled (s : State) (t : Ticket) : Bool := s.cancelled.contains t.token

/-- A termination has overtaken the work with this ticket. -/
def isOutdated (s : State) (t : Ticket) : Bool := s.generation != t.generation

/-- The ticket for work that begins now. -/
def ticket (s : State) : Ticket := ⟨s.generation, s.token⟩

/-! ## Starting -/

/-- What a caller that wants the adapter to be ready sees first: nothing to do, or the number of
starts so far. -/
def observe (s : State) : Option Nat := if s.phase = .ready then none else some s.attempts

/-- What there is to do for a caller whose turn to start a worker has come. -/
inductive Turn where
  /-- A worker is there already. -/
  | unneeded
  /-- A start has failed since the caller asked. -/
  | failed (e : Failure)
  /-- A start begins. -/
  | begins (t : Ticket)

/-- The failure that a caller shares that saw this number of starts when it asked: another start has
begun since, and the last one has failed. -/
def sharedFailure? (s : State) (observed : Nat) : Option Failure :=
  if s.attempts = observed then none
  else match s.lastStart with
    | some (.error e) => some e
    | _ => none

/-- A start begins. -/
def begin (s : State) : State := { s with phase := .initializing, attempts := s.attempts + 1 }

/-- The turn of a caller comes that saw this number of starts when it asked. -/
def enter (s : State) (observed : Nat) : Turn × State :=
  if s.phase = .ready ∨ s.phase = .executing then (.unneeded, s)
  else match s.sharedFailure? observed with
    | some e => (.failed e, s)
    | none => (.begins s.ticket, s.begin)

/-- The failure of a start that a termination has overtaken. -/
def overtaken (language : String) : Failure :=
  .initialization language "terminated during initialization"

/-- A start ends, with a worker or a failure. Where a termination has overtaken it, its worker is
not wanted any more. -/
def leave (s : State) (language : String) (t : Ticket) (r : Except Failure WorkerId) :
    Except Failure Unit × State :=
  if s.isOutdated t then
    (.error (overtaken language), { s with lastStart := some (.error (overtaken language)) })
  else match r with
    | .ok w =>
      (.ok (), { s with phase := .ready, worker := some w, kill := some w, lastStart := some (.ok ()) })
    | .error e => (.error e, { s with phase := .uninitialized, lastStart := some (.error e) })

/-! ## Executing -/

/-- An execution takes the worker. -/
def checkOut (s : State) (language : String) : Except Failure (WorkerId × Ticket) × State :=
  match s.phase with
  | .ready =>
    match s.worker with
    | some w => (.ok (w, s.ticket), { s with phase := .executing, worker := none })
    | none => (.error (.notInitialized language), { s with phase := .uninitialized })
  | .executing => (.error (.busy language), s)
  | _ => (.error (.notInitialized language), s)

/-- The work with this ticket is still the execution that the adapter waits for. -/
def awaits (s : State) (t : Ticket) : Bool := !s.isOutdated t && s.phase == .executing

/-- An execution brings its worker back; a worker that nobody waits for is not taken. -/
def checkIn (s : State) (w : WorkerId) (t : Ticket) : State :=
  if s.awaits t then { s with phase := .ready, worker := some w } else s

/-- An execution has lost its worker. The adapter needs another one, unless nobody waits for it. -/
def discard (s : State) (t : Ticket) : Bool × State :=
  if s.awaits t then (true, { s with phase := .uninitialized, kill := none }) else (false, s)

/-! ## Terminating -/

/-- All work is stopped, and the worker is killed. The state that this passes through is never
seen. -/
def stop (s : State) : State :=
  { s with
    phase := .terminated
    generation := s.generation + 1
    kill := none
    token := s.token + 1
    cancelled := s.token :: s.cancelled }

/-- All work is stopped, and the adapter is without a worker. -/
def terminate (s : State) : State := { s.stop with worker := none, phase := .uninitialized }

end State

end SnippetRunner.Adapter
