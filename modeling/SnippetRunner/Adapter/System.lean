import SnippetRunner.Adapter.Basic
import SnippetRunner.Table
import SnippetRunner.Worker.Desk

/-!
# Calls of an adapter side by side

Any number of calls may be under way at once. A run of the system is a sequence of labels: each says
which call takes its next step, or that something arrives from a worker. Starts take turns: a call that
wants a worker to be there waits in line until those before it have come to their end. How a start
or an execution ends is decided in one step, and the adapter learns of it in another one; a
termination may come in between.

A start or an execution goes on when it is woken. It asks whether it is to stop, and where it is not it
is awake: it does what there is to do, one step after the other, and does not ask again before it rests.
A termination that comes while it is awake stops it only when it is woken the next time. A call that
is woken again, stops or is given up has rested by then, which is no step of its own.

One step is: a section of the adapter, with which a start also orders its launch plan and a termination
kills the worker; the beginning of a plan; the launch of a worker; a request that is sent; a message that
is taken, with those behind it if it is the last one; and an end that is decided, with the worker that
is killed for it. Anything may come between two steps.
-/

namespace SnippetRunner.Adapter

/-- What names a call. -/
inductive CallId where
  /-- A caller has made the call. -/
  | caller (n : Nat)
  /-- The call replaces a lost worker; nobody waits for it, and nobody can give it up. -/
  | background (n : Nat)
  deriving DecidableEq, Repr

/-- What a caller wants to have executed, and under which budget. -/
structure Errand where
  code : String
  budget : Budget
  deriving DecidableEq, Repr

/-- What has been kept of the output of an errand; without an execution it is nothing. -/
def Errand.transcript (x : Errand) (e : Option Worker.Execution) : Transcript :=
  match e with
  | some e => e.transcript
  | none => .ofBudget x.budget

/-- Where a call stands that has not returned. -/
inductive Call where
  /-- It wants a worker to be there, and has seen this number of starts. -/
  | asking (observed : Nat)
  /-- It waits in line for its turn to start a worker. -/
  | waiting (observed : Nat)
  /-- It has the turn, and has ordered a launch plan for the start with this number. -/
  | planning (t : Ticket) (start : Nat)
  /-- Its worker runs and has not said that it is ready. -/
  | readying (t : Ticket) (worker : WorkerId) (s : Worker.Startup)
  /-- Its start has come to an end, of which the adapter does not know yet. -/
  | started (t : Ticket) (r : Except Failure WorkerId)
  /-- It has a worker for its errand. The execution begins when the request is sent. -/
  | executing (t : Ticket) (worker : WorkerId) (x : Errand) (e : Option Worker.Execution)
  /-- Its execution has come to an end, of which the adapter does not know yet. -/
  | executed (t : Ticket) (worker : WorkerId) (x : Errand) (e : Option Worker.Execution)
    (ending : Worker.Ending)

namespace Call

/-- The ticket of a start that goes on. -/
def starting? : Call → Option Ticket
  | .planning t _ | .readying t _ _ => some t
  | _ => none

/-- The ticket of a start or an execution that goes on. -/
def going? : Call → Option Ticket
  | .planning t _ | .readying t _ _ | .executing t _ _ _ => some t
  | _ => none

/-- The worker that the call has. -/
def worker? : Call → Option WorkerId
  | .readying _ w _ => some w
  | .started _ r => r.toOption
  | .executing _ w _ _ | .executed _ w _ _ _ => some w
  | _ => none

/-- The launch plan of the call has been ordered and not begun. -/
def isOrdered (orders : List Nat) : Call → Bool
  | .planning _ n => orders.contains n
  | _ => false

/-- The call waits for something, so that its caller may give it up. -/
def isPending : Call → Bool
  | .waiting _ | .planning _ _ | .readying _ _ _ | .executing _ _ _ _ => true
  | _ => false

end Call

/-- What a call returns. -/
inductive Reply where
  | initialized (r : Except Failure Unit)
  | executed (r : Except Failure Report)

/-- An adapter with the calls under way. -/
structure System where
  language : String
  /-- The budget of an execution that has none of its own. -/
  defaults : Budget
  state : State
  calls : Table CallId Call
  /-- The calls that have asked whether they are to stop, have found that they are not, and have not
  rested since. -/
  awake : List CallId
  /-- The calls that are to start a worker; it is the turn of the first one. -/
  line : List CallId
  /-- The starts, by their numbers, whose launch plans have been ordered and not begun. -/
  orders : List Nat
  /-- How many launch plans have been begun. -/
  starts : Nat
  /-- The ends of the lines to all workers there have been. -/
  desks : List Worker.Desk
  /-- The workers that run and have not been killed. -/
  live : List WorkerId
  /-- How many replacements have been ordered and not begun. -/
  replacements : Nat

namespace System

/-- A new adapter, without calls. -/
def new (language : String) (defaults : Budget) : System :=
  ⟨language, defaults, .new, .empty, [], [], [], 0, [], [], 0⟩

/-- Where a call stands. -/
def call? (s : System) (c : CallId) : Option Call := s.calls.get? c

/-- The system with a call in another place. -/
def setCall (s : System) (c : CallId) (k : Call) : System := { s with calls := s.calls.set c k }

/-- The system with a call that is awake. -/
def wake (s : System) (c : CallId) : System := { s with awake := s.awake.insert c }

/-- The system with a call that rests. -/
def rest (s : System) (c : CallId) : System := { s with awake := s.awake.filter fun d => d != c }

/-- The system without a call. Where it stood in line, those behind it move up. -/
def endCall (s : System) (c : CallId) : System :=
  { s with
    calls := s.calls.erase c
    awake := s.awake.filter fun d => d != c
    line := s.line.filter fun d => d != c }

/-- The system without a worker. -/
def kill (s : System) (w : Option WorkerId) : System :=
  { s with live := s.live.filter fun v => some v != w }

/-- The system with the end of the line to a worker in another state. -/
def setDesk (s : System) (w : WorkerId) (d : Worker.Desk) : System :=
  { s with desks := s.desks.set w d }

/-- A call gets in line. -/
def lineUp (s : System) (c : CallId) : System := { s with line := s.line ++ [c] }

/-- What happens next, and to which call. -/
inductive Label where
  /-- A caller wants a worker to be there. -/
  | prepare (n : Nat)
  /-- A replacement that was ordered begins, as a call of its own. -/
  | replace (n : Nat)
  /-- A call that has found no worker gets in line. -/
  | queue (c : CallId)
  /-- The call whose turn it is looks whether it has to start a worker. -/
  | enter (c : CallId)
  /-- The launch plan that was ordered for a start is begun. -/
  | plan (start : Nat)
  /-- A start or an execution finds that it is not to stop. -/
  | wake (c : CallId)
  /-- A start or an execution has done what there was to do for now, and goes on. -/
  | rest (c : CallId)
  /-- The worker of a start begins to run. -/
  | launch (c : CallId)
  /-- A start takes the next message of its worker. -/
  | listen (c : CallId)
  /-- A start fails. -/
  | fail (c : CallId) (e : Failure)
  /-- A start notices that it is to stop. -/
  | stop (c : CallId)
  /-- A caller wants to execute something, under a budget or the usual one. -/
  | execute (n : Nat) (code : String) (b : Option Budget)
  /-- The request of an execution is sent. -/
  | send (c : CallId)
  /-- An execution takes the next message of its worker. -/
  | receive (c : CallId)
  /-- An execution comes to another end than that its request is done. -/
  | abandon (c : CallId) (ending : Worker.Ending)
  /-- The adapter learns how a start or an execution ended. -/
  | settle (c : CallId)
  | terminate
  /-- A caller gives up its call where it stands. -/
  | drop (n : Nat)
  /-- A message arrives from a worker. -/
  | deliver (w : WorkerId) (m : Worker.Message)
  deriving DecidableEq

/-! ## Starts -/

/-- A caller looks whether a worker is there. -/
def ask (s : System) (c : CallId) : System × Option Reply :=
  match s.state.observe with
  | none => (s, some (.initialized (.ok ())))
  | some observed => (s.setCall c (.asking observed), none)

/-- The call whose turn it is looks whether it has to start a worker. -/
def takeTurn (s : System) (c : CallId) (observed : Nat) : System × Option Reply :=
  match s.state.enter observed with
  | (.unneeded, state) => (({ s with state }).endCall c, some (.initialized (.ok ())))
  | (.failed e, state) => (({ s with state }).endCall c, some (.initialized (.error e)))
  | (.begins t, state) =>
    (({ s with state, orders := s.orders ++ [state.attempts] }).setCall c
      (.planning t state.attempts), none)

/-- The worker of a start begins to run. -/
def launch (s : System) (c : CallId) (t : Ticket) : System :=
  let w := s.desks.length
  ({ s with desks := s.desks ++ [Worker.Desk.start], live := s.live ++ [w] }).setCall c
    (.readying t w .start)

/-- A start takes the next message of its worker. -/
def listen (s : System) (c : CallId) (t : Ticket) (w : WorkerId) (u : Worker.Startup) :
    Option System := do
  let d ← s.desks[w]?
  match ← d.listen u with
  | (u, none, d) => some ((s.setDesk w d).setCall c (.readying t w u))
  | (_, some _, d) => some ((s.setDesk w d).setCall c (.started t (.ok w)))

/-- A start comes to a failing end; its worker, if there is one by then, is killed. -/
def failStart (s : System) (c : CallId) (k : Call) (t : Ticket) (e : Failure) : System :=
  (s.kill k.worker?).setCall c (.started t (.error e))

/-- The adapter learns how a start ended. A worker that does not come into the adapter is killed. -/
def settleStart (s : System) (c : CallId) (t : Ticket) (r : Except Failure WorkerId) :
    System × Option Reply :=
  let (reply, state) := s.state.leave s.language t r
  let s := ({ s with state }).endCall c
  (match reply with
    | .ok () => s
    | .error _ => s.kill r.toOption, some (.initialized reply))

/-! ## Executions -/

/-- A caller wants to execute something. -/
def execute (s : System) (c : CallId) (code : String) (b : Budget) : System × Option Reply :=
  match b.validate with
  | .error e => (s, some (.executed (.error e)))
  | .ok () =>
    match s.state.checkOut s.language with
    | (.ok (w, t), state) => (({ s with state }).setCall c (.executing t w ⟨code, b⟩ none), none)
    | (.error e, state) => ({ s with state }, some (.executed (.error e)))

/-- The request of an execution is sent. -/
def send (s : System) (c : CallId) (t : Ticket) (w : WorkerId) (x : Errand) : Option System := do
  let d ← s.desks[w]?
  let (e, d) := d.send x.code x.budget
  some ((s.setDesk w d).setCall c (.executing t w x (some e)))

/-- An execution takes the next message of its worker. -/
def receive (s : System) (c : CallId) (t : Ticket) (w : WorkerId) (x : Errand)
    (e : Worker.Execution) : Option System := do
  let d ← s.desks[w]?
  match ← d.receive e with
  | (e, none, d) => some ((s.setDesk w d).setCall c (.executing t w x (some e)))
  | (e, some fault, d) => some ((s.setDesk w d).setCall c (.executed t w x (some e) (.done fault)))

/-- An execution comes to another end than that its request is done. A worker that has used up the
time is killed at once. -/
def abandon (s : System) (c : CallId) (t : Ticket) (w : WorkerId) (x : Errand)
    (e : Option Worker.Execution) (ending : Worker.Ending) : System :=
  (s.kill (if ending = .outOfTime then some w else none)).setCall c (.executed t w x e ending)

/-- The adapter learns how an execution ended. A worker that does not come back is killed, and where
the adapter waited for it a replacement is ordered. -/
def settleExecution (s : System) (c : CallId) (t : Ticket) (w : WorkerId)
    (ending : Worker.Ending) : System :=
  if ending.keepsWorker then
    let taken := s.state.awaits t
    let s := ({ s with state := s.state.checkIn w t }).endCall c
    if taken then s else s.kill (some w)
  else
    let (wanted, state) := s.state.discard t
    let s := (({ s with state }).endCall c).kill (some w)
    if wanted then { s with replacements := s.replacements + 1 } else s

/-- An execution may come to this end: a terminated one has found that it is to stop, and another one
is awake. -/
def mayEnd (s : System) (c : CallId) (t : Ticket) : Worker.Ending → Bool
  | .done _ => false
  | .lost _ | .outOfTime => decide (c ∈ s.awake)
  | .terminated => s.state.isCancelled t

/-! ## Steps -/

/-- A caller gives up its call where it stands. -/
def drop (s : System) (c : CallId) (k : Call) : System :=
  (s.endCall c).kill k.worker?

/-- All work is stopped, and the workers in the adapter are killed. -/
def terminate (s : System) : System :=
  (({ s with state := s.state.terminate }).kill s.state.kill).kill s.state.worker

/-- One step, with the reply of the call if it returns. A label that does not fit is refused. -/
def step (s : System) : Label → Option (System × Option Reply)
  | .prepare n => if (s.call? (.caller n)).isSome then none else some (s.ask (.caller n))
  | .replace n =>
    if (s.call? (.background n)).isSome ∨ s.replacements = 0 then none
    else some (({ s with replacements := s.replacements - 1 }).ask (.background n))
  | .queue c =>
    match s.call? c with
    | some (.asking observed) => some ((s.setCall c (.waiting observed)).lineUp c, none)
    | _ => none
  | .enter c =>
    match s.call? c with
    | some (.waiting observed) =>
      if s.line.head? = some c then some (s.takeTurn c observed) else none
    | _ => none
  | .plan n =>
    if n ∈ s.orders then some ({ s with orders := s.orders.erase n, starts := s.starts + 1 }, none)
    else none
  | .wake c =>
    match s.call? c with
    | some k =>
      match k.going? with
      | some t => if s.state.isCancelled t then none else some (s.wake c, none)
      | none => none
    | none => none
  | .rest c =>
    match s.call? c with
    | some k => if k.going?.isSome ∧ c ∈ s.awake then some (s.rest c, none) else none
    | none => none
  | .launch c =>
    match s.call? c with
    | some (.planning t n) =>
      if n ∈ s.orders ∨ c ∉ s.awake then none else some (s.launch c t, none)
    | _ => none
  | .listen c =>
    match s.call? c with
    | some (.readying t w u) => if c ∈ s.awake then (s.listen c t w u).map (·, none) else none
    | _ => none
  | .fail c e =>
    match s.call? c with
    | some k =>
      match k.starting? with
      | some t =>
        if k.isOrdered s.orders ∨ c ∉ s.awake then none else some (s.failStart c k t e, none)
      | none => none
    | none => none
  | .stop c =>
    match s.call? c with
    | some k =>
      match k.starting? with
      | some t =>
        if s.state.isCancelled t then
          some (s.failStart c k t (State.overtaken s.language), none)
        else none
      | none => none
    | none => none
  | .execute n code b =>
    if (s.call? (.caller n)).isSome then none
    else some (s.execute (.caller n) code (b.getD s.defaults))
  | .send c =>
    match s.call? c with
    | some (.executing t w x none) => if c ∈ s.awake then (s.send c t w x).map (·, none) else none
    | _ => none
  | .receive c =>
    match s.call? c with
    | some (.executing t w x (some e)) =>
      if c ∈ s.awake then (s.receive c t w x e).map (·, none) else none
    | _ => none
  | .abandon c ending =>
    match s.call? c with
    | some (.executing t w x e) =>
      if s.mayEnd c t ending then some (s.abandon c t w x e ending, none) else none
    | _ => none
  | .settle c =>
    match s.call? c with
    | some (.started t r) => some (s.settleStart c t r)
    | some (.executed t w x e ending) =>
      some (s.settleExecution c t w ending,
        some (.executed (.ok (ending.report x.budget (x.transcript e).output))))
    | _ => none
  | .terminate => some (s.terminate, none)
  | .drop n =>
    match s.call? (.caller n) with
    | some k => if k.isPending then some (s.drop (.caller n) k, none) else none
    | none => none
  | .deliver w m => s.desks[w]?.map fun d => (s.setDesk w (d.deliver m), none)

end System

end SnippetRunner.Adapter
