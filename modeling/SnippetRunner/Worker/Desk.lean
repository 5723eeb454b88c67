import SnippetRunner.Wire.Request
import SnippetRunner.Worker.Session

/-!
# Desks

The host's end of the line to one worker: the requests sent to it, the number that the next one gets,
and the messages that the readers have passed on and nobody has taken. A start takes messages until
the worker is ready, and an execution until its request is done; what they leave is there for the
next one.
-/

namespace SnippetRunner.Worker

/-- The host's end of the line to a worker. -/
structure Desk where
  nextRequest : Nat
  /-- The requests that have been sent, the first one first. -/
  sent : List Wire.Request
  /-- The messages that nobody has taken, the oldest one first. -/
  messages : List Message
  deriving DecidableEq, Repr

namespace Desk

/-- Nothing has been sent, and nothing has arrived. -/
def start : Desk := ⟨1, [], []⟩

/-- A reader passes a message on. -/
def deliver (d : Desk) (m : Message) : Desk := { d with messages := d.messages ++ [m] }

/-- The next request is sent, for an execution under a budget. -/
def send (d : Desk) (code : String) (b : Budget) : Execution × Desk :=
  (.start d.nextRequest b,
    { d with nextRequest := d.nextRequest + 1, sent := d.sent ++ [⟨d.nextRequest, code⟩] })

/-- A start takes the next message, if there is one; the version comes with the event that the
worker is ready. -/
def listen (d : Desk) (s : Startup) : Option (Startup × Option String × Desk) :=
  match d.messages with
  | [] => none
  | m :: ms =>
    let (s, version) := s.receive m
    some (s, version, { d with messages := ms })

/-- An execution takes the next message, if there is one. With the event that its request is done it
also takes everything that has arrived by then. -/
def receive (d : Desk) (e : Execution) : Option (Execution × Option (Option Fault) × Desk) :=
  match d.messages with
  | [] => none
  | m :: ms =>
    match e.receive m with
    | (e, none) => some (e, none, { d with messages := ms })
    | (e, some fault) => some (e.drain ms, some fault, { d with messages := [] })

section
variable {d : Desk} {m : Message} {ms : List Message} {s : Startup} {e e' : Execution}

/-- What a start makes of the next message. -/
theorem listen_of_cons (h : d.messages = m :: ms) :
    d.listen s = some ((s.receive m).1, (s.receive m).2, { d with messages := ms }) := by
  unfold listen
  rw [h]

theorem listen_of_nil (h : d.messages = []) : d.listen s = none := by
  unfold listen
  rw [h]

theorem receive_of_nil (h : d.messages = []) : d.receive e = none := by
  unfold receive
  rw [h]

/-- An execution goes on after a message. -/
theorem receive_of_cons (h : d.messages = m :: ms) (hm : e.receive m = (e', none)) :
    d.receive e = some (e', none, { d with messages := ms }) := by
  unfold receive
  rw [h]
  simp only [hm]

/-- An execution ends with a message, and takes everything behind it. -/
theorem receive_of_done {fault : Option Fault} (h : d.messages = m :: ms)
    (hm : e.receive m = (e', some fault)) :
    d.receive e = some (e'.drain ms, some fault, { d with messages := [] }) := by
  unfold receive
  rw [h]
  simp only [hm]

end

end Desk

end SnippetRunner.Worker
