import SnippetRunner.Snippet.Report
import SnippetRunner.Worker.Incoming

/-!
# Talking to a worker

What the host makes of the messages of a worker: while it waits for the worker to become ready, and
while the worker executes a request. Only events that carry the number of the request count for it;
text on the other pipe always counts for the request at hand.
-/

namespace SnippetRunner.Worker

/-! ## Becoming ready -/

/-- A worker that has not become ready yet, by what it wrote to the other pipe. -/
structure Startup where
  stderr : String
  deriving DecidableEq, Repr

namespace Startup

/-- From how many bytes on no more text is kept. -/
def stderrLimit : Nat := 4096

/-- Nothing has arrived. -/
def start : Startup := ⟨""⟩

/-- One message more; the version comes with the event that the worker is ready. -/
def receive (s : Startup) : Message → Startup × Option String
  | .event (.ready version) => (s, some version)
  | .event _ => (s, none)
  | .stderr text =>
    (if s.stderr.utf8ByteSize < stderrLimit then ⟨s.stderr ++ text⟩ else s, none)

/-- The failure of a worker that ended before it was ready. -/
def exited (s : Startup) (detail : String) : String :=
  let text := Text.trim s.stderr
  "worker exited before ready (" ++ detail ++ ")" ++ (if text = "" then "" else ": " ++ text)

/-- The failure of a worker that took too long. -/
def tooSlow (limit : Span) : String :=
  "worker not ready after " ++ Text.decimal limit.millis ++ " ms"

end Startup

/-! ## Executing a request -/

/-- An execution, by the number of its request and what it has written so far. -/
structure Execution where
  id : Nat
  transcript : Transcript
  deriving DecidableEq, Repr

namespace Execution

/-- The execution of the request with this number, under a budget. -/
def start (id : Nat) (b : Budget) : Execution := ⟨id, .ofBudget b⟩

/-- Text on one stream. -/
def write (e : Execution) (c : Channel) (text : String) : Execution :=
  match e with
  | ⟨id, transcript⟩ => ⟨id, transcript.write c text⟩

/-- One message more. The event that the request is done comes with its fault, if there is one. -/
def receive (e : Execution) (m : Message) : Execution × Option (Option Fault) :=
  match m with
  | .event (.done id fault) =>
    if id = e.id then (e, some (fault.map Wire.RawFault.fault)) else (e, none)
  | .event (.output c id text) => if id = e.id then (e.write c text, none) else (e, none)
  | .event (.ready _) => (e, none)
  | .stderr text => (e.write .stderr text, none)

/-- Messages that arrived by the time the request was done: text on the other pipe still counts, and
nothing else. -/
def drain (e : Execution) (ms : List Message) : Execution :=
  ms.foldl
    (fun e m =>
      match m with
      | .stderr text => e.write .stderr text
      | .event _ => e) e

end Execution

/-- What a worker without a status is said to have done. -/
def streamClosed : String := "protocol stream closed"

/-- How long the host waits for the status of a worker that closed its pipes. -/
def statusGrace : Span := .ofMillis 200

/-- How an execution ended. -/
inductive Ending where
  /-- The worker said that the request is done. -/
  | done (fault : Option Fault)
  /-- The worker was lost. -/
  | lost (detail : String)
  /-- The adapter was terminated. -/
  | terminated
  /-- The time of the budget was up. -/
  | outOfTime
  deriving DecidableEq, Repr

/-- The worker can take the next request after this. -/
def Ending.keepsWorker : Ending → Bool
  | .done _ => true
  | _ => false

/-- How an execution ends that is looked at now, unless it goes on: a termination comes first, then
what the worker has come to, and the time last. -/
def Ending.choose (isCancelled : Bool) (worker : Option Ending) (isExpired : Bool) : Option Ending :=
  if isCancelled then some .terminated
  else match worker with
    | some e => some e
    | none => if isExpired then some .outOfTime else none

/-- The report on an execution that ended so. -/
def Ending.report (e : Ending) (b : Budget) (output : Output) : Report :=
  match e with
  | .done fault => .completed output fault
  | .lost detail => .failed output (.workerExited detail)
  | .terminated => .failed output .terminated
  | .outOfTime => .outOfTime output b.timeout

end SnippetRunner.Worker
