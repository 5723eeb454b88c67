import SnippetRunner.Adapter.System
import SnippetRunner.Bench.Connection
import SnippetRunner.Bench.Spawn
import SnippetRunner.Interpreter.Cache
import SnippetRunner.Time.Deadline
import SnippetRunner.Worker.Session

/-!
# Rehearsals of an adapter

An adapter with rehearsed workers and a clock of its own. Several jobs are carried out side by side:
each goes on until it has to wait, in the order in which they were given, and after them the
replacements that were ordered. When all of them wait, the workers go on, and when those wait too
the clock moves to the next moment at which something is due. The adapter itself moves by the steps
of its transition system alone.
-/

namespace SnippetRunner.Bench

open Adapter (CallId WorkerId)

/-- What a start launches: a plan, and the script that its process follows unless it runs what the
plan names. -/
structure Cue where
  plan : Launch.Plan
  script : Option Script

/-- Something to do with an adapter. -/
inductive Job where
  | prepare
  | execute (code : String) (budget : Option Budget)
  /-- The adapter is terminated after so many milliseconds. -/
  | terminate (after : Nat)
  /-- So many milliseconds go by. -/
  | sleep (ms : Nat)

/-- What came of a job. -/
inductive Outcome where
  | initialized (r : Except Failure Unit)
  | executed (r : Except Failure Report)
  | nothing

/-- What came of a job, by the reply of its call. -/
def Outcome.ofReply : Option Adapter.Reply → Outcome
  | some (.initialized r) => .initialized r
  | some (.executed r) => .executed r
  | none => .nothing

/-- The outcome of a job, and the state of the adapter at that moment. -/
structure Answer where
  outcome : Outcome
  phase : Adapter.Phase

/-- What a job waits for; where its call stands is known to the adapter. Deadlines are in
milliseconds of the clock. -/
inductive Activity where
  | fresh (job : Job)
  /-- An ordered replacement that has not begun. -/
  | ordered
  /-- A start waits for its turn. -/
  | waiting
  /-- A start, by its number, has asked for a launch plan. -/
  | planning (start : Nat) (deadline : Nat)
  /-- A start waits for its worker to be ready. -/
  | readying (deadline : Nat)
  /-- A start waits for the status of a worker that closed its pipes. -/
  | mourning (grace deadline : Nat)
  /-- An execution waits for its worker. -/
  | running (deadline : Nat)
  /-- An execution waits for the status of a worker that closed its pipes. -/
  | losing (grace deadline : Nat)
  /-- The adapter is terminated at this moment. -/
  | terminating (moment : Nat)
  | sleeping (moment : Nat)
  | finished (a : Answer)

/-- A job under way, as a call of the adapter. -/
structure Task where
  number : Nat
  /-- Nobody waits for it. -/
  inBackground : Bool
  activity : Activity

/-- What names the call of a task. -/
def Task.call (t : Task) : CallId :=
  if t.inBackground then .background t.number else .caller t.number

/-- What has come of a task, if it has come to its end. -/
def Task.answer? (t : Task) : Option Answer :=
  match t.activity with
  | .finished a => some a
  | _ => none

/-- The moments at which a task goes on by itself. -/
def Task.alarms (t : Task) : List Nat :=
  match t.activity with
  | .readying deadline | .running deadline => [deadline]
  | .mourning grace deadline | .losing grace deadline => [grace, deadline]
  | .terminating moment | .sleeping moment => [moment]
  | _ => []

/-- An adapter in rehearsal. -/
structure Rehearsal where
  stage : Stage
  adapter : Adapter.System
  /-- How long a worker may take to become ready. -/
  startLimit : Span
  /-- What the start with a number launches, and what is known of interpreters afterwards. -/
  cue : Nat → Interpreter.Cache → Except Failure Cue × Interpreter.Cache
  cache : Interpreter.Cache
  /-- The clock, in milliseconds. -/
  now : Nat
  connections : List (WorkerId × Connection)
  /-- The replacements under way. -/
  background : List Task
  /-- How many calls and replacements there have been. -/
  calls : Nat
  /-- How many steps have been taken. -/
  steps : Nat

namespace Rehearsal

/-- A rehearsal that has not begun. -/
def new (stage : Stage) (language : String) (defaults : Budget) (startLimit : Span)
    (cue : Nat → Interpreter.Cache → Except Failure Cue × Interpreter.Cache) : Rehearsal :=
  ⟨stage, .new language defaults, startLimit, cue, .empty, 0, [], [], 0, 0⟩

/-- The moment that is this far away, on a clock of whole milliseconds. -/
def after (r : Rehearsal) (s : Span) : Nat := Clock.alarm ⟨r.now * 1000000⟩ s

/-- The connection to a worker. -/
def connection? (r : Rehearsal) (w : WorkerId) : Option Connection :=
  (r.connections.find? fun e => e.1 == w).map Prod.snd

/-- The rehearsal with the connection to a worker in another state. -/
def setConnection (r : Rehearsal) (w : WorkerId) (c : Connection) : Rehearsal :=
  { r with connections := (r.connections.filter fun e => e.1 != w) ++ [(w, c)] }

/-- The adapter takes a step, if it can; workers that it gives up are killed. -/
def take (r : Rehearsal) (l : Adapter.System.Label) : Rehearsal × Option Adapter.Reply :=
  match r.adapter.step l with
  | none => (r, none)
  | some (adapter, reply) =>
    ({ r with
      adapter
      steps := r.steps + 1
      connections := r.connections.map fun e =>
        if adapter.live.contains e.1 then e else (e.1, e.2.kill) }, reply)

/-- A call is woken or rests, which is no progress: whoever waits for others to go on does not wait for
that. -/
def turn (r : Rehearsal) (l : Adapter.System.Label) : Rehearsal :=
  { (r.take l).1 with steps := r.steps }

/-- The adapter takes the same step again and again. -/
def takeTimes : Nat → Rehearsal → Adapter.System.Label → Rehearsal
  | 0, r, _ => r
  | n + 1, r, l => takeTimes n (r.take l).1 l

/-- How many messages of a worker nobody has taken. -/
def unread (r : Rehearsal) (w : WorkerId) : Nat :=
  ((r.adapter.desks[w]?).map fun d => d.messages.length).getD 0

/-- A task waits, and its call rests. -/
def wait (r : Rehearsal) (t : Task) (a : Activity) : Rehearsal × Task :=
  (r.turn (.rest t.call), { t with activity := a })

/-- A task has come to its end. -/
def finish (r : Rehearsal) (t : Task) (o : Outcome) : Rehearsal × Task :=
  (r, { t with activity := .finished ⟨o, r.adapter.state.phase⟩ })

/-- The adapter learns how a start or an execution ended. -/
def conclude (r : Rehearsal) (t : Task) : Rehearsal × Task :=
  let (r, reply) := r.take (.settle t.call)
  r.finish t (.ofReply reply)

/-- A start or an execution has come to its end, of which the adapter learns at once. -/
def concludeBy (r : Rehearsal) (t : Task) (l : Adapter.System.Label) : Rehearsal × Task :=
  (r.take l).1.conclude t

/-- A termination has overtaken the call of a task. -/
def isCancelled (r : Rehearsal) (t : Task) : Bool :=
  match r.adapter.call? t.call with
  | some k => k.going?.any r.adapter.state.isCancelled
  | none => false

/-- The status of a worker is asked for. -/
def tryWait (r : Rehearsal) (w : WorkerId) : Option Child.Status × Rehearsal :=
  match r.connection? w with
  | none => (none, r)
  | some c =>
    let (status, c) := c.tryWait
    (status, r.setConnection w c)

/-- Both pipes of a worker have come to their end. -/
def isClosed (r : Rehearsal) (w : WorkerId) : Bool :=
  ((r.connection? w).map Connection.closed).getD true

/-! ## Starts -/

/-- A start fails. -/
def failStart (r : Rehearsal) (t : Task) (message : String) : Rehearsal × Task :=
  r.concludeBy t (.fail t.call (.initialization r.adapter.language message))

/-- A start that waits for its turn looks whether it has come. -/
def tryTurn (r : Rehearsal) (t : Task) : Rehearsal × Task :=
  match r.take (.enter t.call) with
  | (r, some reply) => r.finish t (.ofReply reply)
  | (r, none) =>
    match r.adapter.call? t.call with
    | some (.planning _ n) =>
      let start := r.adapter.starts
      let (r, _) := r.take (.plan n)
      (r, { t with activity := .planning start (r.after r.startLimit) })
    | _ => (r, t)

/-- A caller wants a worker to be there. -/
def ask (r : Rehearsal) (t : Task) (l : Adapter.System.Label) : Rehearsal × Task :=
  match r.take l with
  | (r, some reply) => r.finish t (.ofReply reply)
  | (r, none) => (r.take (.queue t.call)).1.tryTurn { t with activity := .waiting }

/-- A start waits for the status of its worker. -/
def mourn (r : Rehearsal) (t : Task) (grace deadline : Nat) : Rehearsal × Task :=
  match r.adapter.call? t.call with
  | some (.readying _ w s) =>
    if r.isCancelled t then r.concludeBy t (.stop t.call)
    else match (r.turn (.wake t.call)).tryWait w with
      | (some status, r) => r.failStart t (s.exited status.describe)
      | (none, r) =>
        if grace ≤ r.now then r.failStart t (s.exited Worker.streamClosed)
        else if deadline ≤ r.now then r.failStart t (Worker.Startup.tooSlow r.startLimit)
        else r.wait t (.mourning grace deadline)
  | _ => r.finish t .nothing

/-- A start waits for its worker to be ready. -/
def awaitReady (r : Rehearsal) (t : Task) (deadline : Nat) : Rehearsal × Task :=
  match r.adapter.call? t.call with
  | some (.readying _ w _) =>
    if r.isCancelled t then r.concludeBy t (.stop t.call)
    else
      let r := takeTimes (r.unread w) (r.turn (.wake t.call)) (.listen t.call)
      match r.adapter.call? t.call with
      | some (.started _ _) => r.conclude t
      | _ =>
        if r.isClosed w then r.mourn t (r.after Worker.statusGrace) deadline
        else if deadline ≤ r.now then r.failStart t (Worker.Startup.tooSlow r.startLimit)
        else r.wait t (.readying deadline)
  | _ => r.finish t .nothing

/-- A start has its launch plan and begins to run a worker. -/
def launch (r : Rehearsal) (t : Task) (start deadline : Nat) : Rehearsal × Task :=
  let (cue, cache) := r.cue start r.cache
  let r := { r with cache }
  if r.isCancelled t then r.concludeBy t (.stop t.call)
  else
    let r := r.turn (.wake t.call)
    match cue with
    | .error e => r.concludeBy t (.fail t.call e)
    | .ok cue =>
      match spawn r.stage cue.plan cue.script with
      | .error e => r.failStart t e.message
      | .ok player =>
        let w := r.adapter.desks.length
        let (r, _) := r.take (.launch t.call)
        (r.setConnection w (.start player)).awaitReady t deadline

/-! ## Executions -/

/-- An execution may come to another end than that its request is done; otherwise it waits. -/
def tryAbandon (r : Rehearsal) (t : Task) (ending : Option Worker.Ending) (a : Activity) :
    Rehearsal × Task :=
  match ending with
  | some ending => r.concludeBy t (.abandon t.call ending)
  | none => r.wait t a

/-- An execution waits for the status of its worker. -/
def lose (r : Rehearsal) (t : Task) (grace deadline : Nat) : Rehearsal × Task :=
  match r.adapter.call? t.call with
  | some (.executing _ w _ _) =>
    let isExpired : Bool := decide (deadline ≤ r.now)
    if r.isCancelled t then r.concludeBy t (.abandon t.call .terminated)
    else
      let (status, r) := (r.turn (.wake t.call)).tryWait w
      let lost := match status with
        | some status => some (.lost status.describe)
        | none => if grace ≤ r.now then some (.lost Worker.streamClosed) else none
      r.tryAbandon t (Worker.Ending.choose false lost isExpired) (.losing grace deadline)
  | _ => r.finish t .nothing

/-- What the host is told when it writes to a worker that has ended. -/
def brokenPipe : String := "cannot write to worker: Broken pipe (os error 32)"

/-- An execution takes what has arrived from its worker. -/
def follow (r : Rehearsal) (t : Task) (deadline : Nat) : Rehearsal × Task :=
  match r.adapter.call? t.call with
  | some (.executing _ w _ _) =>
    let goOn (r : Rehearsal) (ending : Option Worker.Ending) : Rehearsal × Task :=
      r.tryAbandon t (Worker.Ending.choose false ending (decide (deadline ≤ r.now)))
        (.running deadline)
    if r.isCancelled t then r.concludeBy t (.abandon t.call .terminated)
    else
      let r := r.turn (.wake t.call)
      let connection := r.connection? w
      if connection.any Connection.isStalled then
        goOn r (if connection.any Connection.hasEnded then some (.lost brokenPipe) else none)
      else
        let r := takeTimes (r.unread w) r (.receive t.call)
        match r.adapter.call? t.call with
        | some (.executed _ _ _ _ _) => r.conclude t
        | _ =>
          if r.isClosed w then r.lose t (r.after Worker.statusGrace) deadline
          else goOn r none
  | _ => r.finish t .nothing

/-- The request of an execution goes into the pipe to its worker. -/
def feed (r : Rehearsal) (w : WorkerId) (q : Wire.Request) : Rehearsal :=
  match r.connection? w with
  | none => r
  | some c => r.setConnection w (c.feed (Text.utf8 q.line))

/-- A caller wants to execute something. -/
def execute (r : Rehearsal) (t : Task) (code : String) (budget : Option Budget) :
    Rehearsal × Task :=
  match r.take (.execute t.number code budget) with
  | (r, some reply) => r.finish t (.ofReply reply)
  | (r, none) =>
    let (r, _) := (r.turn (.wake t.call)).take (.send t.call)
    match r.adapter.call? t.call with
    | some (.executing _ w x (some e)) =>
      if (r.connection? w).any Connection.hasEnded then
        r.concludeBy t (.abandon t.call (.lost brokenPipe))
      else (r.feed w ⟨e.id, x.code⟩).follow t (r.after x.budget.timeout)
    | _ => r.finish t .nothing

/-! ## Side by side -/

/-- A task goes on until it has to wait. -/
def poll (r : Rehearsal) (t : Task) : Rehearsal × Task :=
  match t.activity with
  | .fresh .prepare => r.ask t (.prepare t.number)
  | .fresh (.execute code budget) => r.execute t code budget
  | .fresh (.terminate 0) => (r.take .terminate).1.finish t .nothing
  | .fresh (.terminate ms) => (r, { t with activity := .terminating (r.now + ms) })
  | .fresh (.sleep ms) => (r, { t with activity := .sleeping (r.now + ms) })
  | .ordered => r.ask t (.replace t.number)
  | .waiting => r.tryTurn t
  | .planning start deadline => r.launch t start deadline
  | .readying deadline => r.awaitReady t deadline
  | .mourning grace deadline => r.mourn t grace deadline
  | .running deadline => r.follow t deadline
  | .losing grace deadline => r.lose t grace deadline
  | .terminating moment =>
    if moment ≤ r.now then (r.take .terminate).1.finish t .nothing else (r, t)
  | .sleeping moment => if moment ≤ r.now then r.finish t .nothing else (r, t)
  | .finished _ => (r, t)

/-- Each of several tasks goes on until it has to wait. -/
def pollAll (r : Rehearsal) (ts : List Task) : Rehearsal × List Task :=
  ts.foldl
    (fun (s : Rehearsal × List Task) t =>
      let (r, t) := s.1.poll t
      (r, s.2 ++ [t])) (r, [])

/-- The replacements under way go on, and those that were ordered begin. -/
def pollBackground (r : Rehearsal) : Rehearsal :=
  let orders := (List.range r.adapter.replacements).map fun i => Task.mk (r.calls + i) true .ordered
  let r := { r with calls := r.calls + r.adapter.replacements }
  let (r, ts) := r.pollAll (r.background ++ orders)
  { r with background := ts.filter fun t => t.answer?.isNone }

/-- A worker goes on until it has to wait; what it has told the host arrives. -/
def runWorker (r : Rehearsal) (w : WorkerId) : Rehearsal :=
  match r.connection? w with
  | none => r
  | some c =>
    let active := c.isActive r.now
    let c := ({ c with pack := c.pack.mingle r.stage.tree.nodes }).run r.now
    let r := c.messages.foldl (fun r m => (r.take (.deliver w m)).1)
      { r with
        steps := if active then r.steps + 1 else r.steps
        stage := { r.stage with tree := { r.stage.tree with nodes := c.pack.outside } } }
    r.setConnection w { c with messages := [] }

/-- The workers go on until they have to wait. -/
def runWorkers (r : Rehearsal) : Rehearsal :=
  (r.connections.map Prod.fst).foldl runWorker r

/-- Everything goes on until all of it has to wait for the clock or all tasks have come to their
end. The first argument bounds the number of rounds. -/
def settle : Nat → Rehearsal → List Task → Rehearsal × List Task
  | 0, r, ts => (r, ts)
  | fuel + 1, r, ts =>
    let before := r.steps
    let (r, ts) := r.pollAll ts
    if ts.all fun t => t.answer?.isSome then (r, ts)
    else
      let r := r.pollBackground.runWorkers
      if r.steps = before then (r, ts) else settle fuel r ts

/-- The next moment at which something is due. -/
def alarm? (r : Rehearsal) (ts : List Task) : Option Nat :=
  let moments := (ts ++ r.background).flatMap Task.alarms ++
    r.connections.filterMap fun e => e.2.pack.alarm? r.now
  (moments.filter fun m => r.now < m).min?

/-- Tasks are carried out to their end. The first argument bounds the number of times that the clock
moves. -/
def carryOut : Nat → Rehearsal → List Task → Rehearsal × List Task
  | 0, r, ts => (r, ts)
  | fuel + 1, r, ts =>
    let (r, ts) := r.settle 10000 ts
    if ts.all fun t => t.answer?.isSome then (r, ts)
    else match r.alarm? ts with
      | none => (r, ts)
      | some moment => carryOut fuel { r with now := moment }.runWorkers ts

/-- Jobs are carried out side by side. -/
def perform (r : Rehearsal) (jobs : List Job) : List Answer × Rehearsal :=
  let tasks := jobs.zipIdx.map fun j => Task.mk (r.calls + j.2) false (.fresh j.1)
  let (r, ts) := carryOut 100000 { r with calls := r.calls + jobs.length } tasks
  (ts.map fun t => t.answer?.getD ⟨.nothing, r.adapter.state.phase⟩, r)

/-- One job is carried out. -/
def performOne (r : Rehearsal) (job : Job) : Outcome × Rehearsal :=
  let (answers, r) := r.perform [job]
  ((answers.head?.map Answer.outcome).getD .nothing, r)

/-- The adapter rests a worker that runs. -/
def hasWorker (r : Rehearsal) : Bool := r.adapter.state.worker.isSome

end Rehearsal

end SnippetRunner.Bench
