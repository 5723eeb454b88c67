import SnippetRunner.Proofs.Adapter.Joining

/-!
# Calls that are given up

While an execution goes on its worker is with the call alone, and only the section with which the call
ends brings the phase back. So a caller that gives up an execution takes the worker with it and leaves
the phase behind: the adapter goes on waiting, for nobody, until a termination. A caller that gives up
a start leaves the phase behind as well, but the next one that asks does not mind. What the adapter
waits for can be told from the steps that have been taken, so these are the only ways.
-/

namespace SnippetRunner.Adapter

/-- The execution that an adapter waits for. -/
inductive Awaited where
  | nobody
  /-- This caller has made the call. -/
  | caller (n : Nat)
  /-- Its caller has given it up. -/
  | forsaken
  deriving DecidableEq

namespace Awaited

/-- A call comes to its end. -/
def settle (c : CallId) : Awaited → Awaited
  | .caller n => if c = .caller n then .nobody else .caller n
  | a => a

/-- A caller gives up its call. -/
def giveUp (m : Nat) : Awaited → Awaited
  | .caller n => if m = n then .forsaken else .caller n
  | a => a

/-- What a step says of the execution that is awaited. An execution begins where the call does not
return at once. -/
def note (a : Awaited) : System.Event → Awaited
  | ⟨.execute n _ _, none⟩ => .caller n
  | ⟨.settle c, _⟩ => a.settle c
  | ⟨.drop n, _⟩ => a.giveUp n
  | ⟨.terminate, _⟩ => .nobody
  | _ => a

/-- The execution that is awaited after these steps of a new adapter. -/
def after (h : List System.Event) : Awaited := h.foldl note .nobody

theorem after_append (h : List System.Event) (e : System.Event) :
    after (h ++ [e]) = (after h).note e :=
  List.foldl_concat ..

/-- A step that does not concern the ledger says nothing of it. -/
theorem note_of_isStill (a : Awaited) {l : System.Label} (r : Option Reply) (still : l.IsStill) :
    a.note ⟨l, r⟩ = a := by
  cases l with
  | queue | enter | execute | settle | terminate | drop => cases still
  | _ => rfl

end Awaited

/-! ## The ledger of an adapter that waits -/

namespace Ledger

variable {g g' : Ledger} {a : Awaited} {c d : CallId} {t : Ticket} {w : WorkerId} {σ : State}
  {language : String}

/-- The phase and the calls stand as they do while the adapter waits for this execution. -/
def Awaits (g : Ledger) : Awaited → Prop
  | .nobody => g.state.phase ≠ .executing
  | .caller n => g.state.phase = .executing ∧ g.Current (.caller n)
  | .forsaken => g.state.phase = .executing ∧ ∀ d, ¬g.Current d

/-- Another state of the same generation has the same work done for it. -/
theorem current_withState (generation : σ.generation = g.state.generation) :
    ({ g with state := σ } : Ledger).Current d ↔ g.Current d := by
  show (∃ t, (g.duty d).ticket? = some t ∧ t.generation = σ.generation) ↔ g.Current d
  rw [generation]
  rfl

/-- A call that gets in line does not begin to work. -/
theorem current_join (idle : g.duty c = .idle) {line : List CallId} :
    ({ g.assign c .waits with line := line } : Ledger).Current d ↔ g.Current d := by
  show (g.assign c .waits).Current d ↔ g.Current d
  by_cases same : d = c
  · subst same
    exact iff_of_false (not_current_of_waits (duty_assign_self ..)) (not_current_of_idle idle)
  · unfold Current
    rw [duty_assign_of_ne _ _ same]
    rfl

namespace Awaits

/-- An adapter that does not execute waits for nobody. -/
theorem eq_nobody (h : g.Awaits a) (phase : g.state.phase ≠ .executing) : a = .nobody := by
  cases a with
  | nobody => rfl
  | caller n => exact absurd h.1 phase
  | forsaken => exact absurd h.1 phase

/-- Only the phase matters, and who works. -/
theorem frame (h : g.Awaits a) (phase : g'.state.phase = g.state.phase)
    (current : ∀ d, g'.Current d ↔ g.Current d) : g'.Awaits a := by
  cases a with
  | nobody => exact fun executing => h (phase.symm.trans executing)
  | caller n => exact ⟨phase.trans h.1, (current _).2 h.2⟩
  | forsaken => exact ⟨phase.trans h.1, fun d hd => h.2 d ((current d).1 hd)⟩

/-- A call goes that has not worked for the present generation. -/
theorem without (h : g.Awaits a) (gone : ¬g.Current c) (phase : σ.phase = g.state.phase)
    (generation : σ.generation = g.state.generation) :
    ({ g.without c with state := σ } : Ledger).Awaits a := by
  refine h.frame phase fun d => ?_
  rw [current_withState (g := g.without c) generation, current_without]
  refine and_iff_right_of_imp fun hd same => ?_
  subst same
  exact gone hd

/-- A call comes to its end. If it has worked for the present generation, the adapter does not execute
any more, and otherwise the call has changed nothing of that. -/
theorem settle (h : g.Awaits a) (tended : Tended g)
    (present : g.Current c → σ.phase ≠ .executing)
    (past : ¬g.Current c → σ.phase = g.state.phase ∧ σ.generation = g.state.generation) :
    ({ g.without c with state := σ } : Ledger).Awaits (a.settle c) := by
  by_cases current : g.Current c
  · have idle := present current
    cases a with
    | nobody => exact idle
    | caller n =>
      -- only one call works for the present generation, so it is the one that is awaited
      obtain ⟨-, -, -, unique⟩ := tended.of_executing h.1
      have own : c = .caller n := unique c (.caller n) current h.2
      have done : (Awaited.caller n).settle c = .nobody := if_pos own
      rw [done]
      exact idle
    | forsaken => exact absurd current (h.2 c)
  · obtain ⟨phase, generation⟩ := past current
    have unchanged : a.settle c = a := by
      cases a with
      | nobody => rfl
      | caller n =>
        refine if_neg fun same => ?_
        subst same
        exact current h.2
      | forsaken => rfl
    rw [unchanged]
    exact h.without current phase generation

/-- A start comes to its end. -/
theorem leave (h : g.Awaits a) (tended : Tended g) (starts : g.duty c = .starts t)
    (q : Except Failure WorkerId) :
    ({ g.without c with state := (g.state.leave language t q).2 } : Ledger).Awaits
      (a.settle c) := by
  refine h.settle tended ?_ ?_
  · intro current
    have wanted := State.isOutdated_eq_false_iff.2 ((current_of_starts starts).1 current)
    cases q with
    | ok w => simp [State.leave_of_ok wanted]
    | error e => simp [State.leave_of_error wanted]
  · intro gone
    have outdated : g.state.isOutdated t = true := by
      rw [State.isOutdated_eq_true_iff]
      exact fun present => gone ((current_of_starts starts).2 present)
    rw [State.leave_of_outdated outdated]
    exact ⟨rfl, rfl⟩

/-- An execution comes to its end: where the adapter has waited for it, it is in a state in which it
does not execute, and otherwise in the same state. -/
theorem finish (h : g.Awaits a) (tended : Tended g) (runs : g.duty c = .runs t w)
    (awaited : g.state.awaits t = true → σ.phase ≠ .executing)
    (unwanted : g.state.awaits t = false → σ = g.state) :
    ({ g.without c with state := σ } : Ledger).Awaits (a.settle c) := by
  refine h.settle tended ?_ ?_
  · intro current
    have present := (current_of_runs runs).1 current
    exact awaited (State.awaits_eq_true_iff.2 ⟨present, (tended.of_runs runs present).1⟩)
  · intro gone
    have same : σ = g.state := by
      refine unwanted (Bool.eq_false_iff.2 fun awaits => ?_)
      exact gone ((current_of_runs runs).2 (State.awaits_eq_true_iff.1 awaits).1)
    rw [same]
    exact ⟨rfl, rfl⟩

/-- An execution brings its worker back. -/
theorem checkIn (h : g.Awaits a) (tended : Tended g) (runs : g.duty c = .runs t w) :
    ({ g.without c with state := g.state.checkIn w t } : Ledger).Awaits (a.settle c) := by
  refine h.finish tended runs ?_ fun unwanted => State.checkIn_of_not_awaits unwanted
  intro awaited
  simp [State.checkIn_of_awaits awaited]

/-- An execution has lost its worker. -/
theorem discard (h : g.Awaits a) (tended : Tended g) (runs : g.duty c = .runs t w) :
    ({ g.without c with state := (g.state.discard t).2 } : Ledger).Awaits (a.settle c) := by
  refine h.finish tended runs ?_ ?_
  · intro awaited
    simp [State.discard_of_awaits awaited]
  · intro unwanted
    rw [State.discard_of_not_awaits unwanted]

/-- A caller gives up its call, whatever it was about. -/
theorem giveUp (h : g.Awaits a) (tended : Tended g) (n : Nat) :
    (g.without (.caller n)).Awaits (a.giveUp n) := by
  cases a with
  | nobody => exact h
  | forsaken => exact ⟨h.1, fun d hd => h.2 d (current_without.1 hd).2⟩
  | caller m =>
    obtain ⟨executing, current⟩ := h
    by_cases same : n = m
    · subst same
      have forsaken : (Awaited.caller n).giveUp n = .forsaken := if_pos rfl
      rw [forsaken]
      obtain ⟨-, -, -, unique⟩ := tended.of_executing executing
      refine ⟨executing, fun d hd => ?_⟩
      obtain ⟨other, working⟩ := current_without.1 hd
      exact other (unique d (.caller n) working current)
    · have waits : (Awaited.caller m).giveUp n = .caller m := if_neg same
      rw [waits]
      refine ⟨executing, current_without.2 ⟨?_, current⟩⟩
      exact fun own => same (CallId.caller.inj own).symm

end Awaits

end Ledger

/-! ## What the steps tell -/

namespace System

variable {s s' : System} {a : Awaited} {c : CallId} {l : Label} {r : Option Reply}

/-- Every step tells what the adapter waits for after it. -/
theorem Step.awaits (h : Step s l s' r) (tended : s.ledger.Tended) (awaits : s.ledger.Awaits a) :
    s'.ledger.Awaits (a.note ⟨l, r⟩) := by
  by_cases still : l.IsStill
  · rw [h.ledger_eq still, Awaited.note_of_isStill a r still]
    exact awaits
  cases h with
  | queue stands =>
    rw [ledger_queue]
    have idle := duty_of_stands stands
    exact awaits.frame rfl fun d => Ledger.current_join idle
  | @enter c o s' r stands first taken =>
    have waits := duty_of_stands stands
    have gone : (s.endCall c).ledger.Awaits a := by
      rw [ledger_endCall]
      exact awaits.without (Ledger.not_current_of_waits waits) rfl rfl
    rcases takeTurn_cases taken with ⟨-, rfl⟩ | ⟨idle, ⟨e, -, rfl⟩ | ⟨-, rfl⟩⟩
    · exact gone
    · exact gone
    · -- a start begins only where the adapter does not execute, and so waits for nobody
      obtain rfl := awaits.eq_nobody fun executing => idle (.inr executing)
      show s.state.begin.phase ≠ .executing
      simp [State.begin]
  | @execute n code b s' r free taken =>
    rcases execute_reply taken with
      ⟨rfl, ready, w, worker, rfl⟩ | ⟨⟨e, rfl⟩, rfl | ⟨ready, none, -⟩⟩
    · rw [ledger_setCall, State.checkOut_of_ready ready worker]
      exact ⟨rfl, _, congrArg Duty.ticket? (Ledger.duty_assign_self ..), rfl⟩
    · exact awaits
    · -- an adapter that is ready without a worker does not come about
      obtain ⟨w, there, -⟩ := tended.worker_of_ready ready
      have there : s.state.worker = some w := there
      rw [none] at there
      cases there
  | settleStart stands settled =>
    rw [ledger_settleStart settled]
    exact awaits.leave tended (duty_of_stands stands) _
  | @settleExecution c t w x e ending stands =>
    have runs : s.ledger.duty c = .runs t w := duty_of_stands stands
    cases keeps : ending.keepsWorker with
    | true =>
      rw [ledger_settleExecution_of_keeps keeps]
      exact awaits.checkIn tended runs
    | false =>
      rw [ledger_settleExecution_of_lost keeps]
      exact awaits.discard tended runs
  | terminate =>
    show s.state.terminate.phase ≠ .executing
    simp [State.terminate]
  | @drop n k stands pending =>
    unfold System.drop
    rw [ledger_kill, ledger_endCall]
    exact awaits.giveUp tended n
  | prepare | replace | plan | wake | rest | launch | listen | fail | stop | send | receive | abandon
  | deliver => exact absurd trivial still

/-- The steps of a run tell what the adapter waits for. -/
theorem Traces.awaits {language : String} {b : Budget} {h : List Event}
    (run : Traces (new language b) h s) : s.ledger.Awaits (Awaited.after h) := by
  induction run with
  | refl =>
    show (new language b).state.phase ≠ .executing
    simp [new, State.new]
  | next run step ih =>
    rw [Awaited.after_append]
    exact (Step.of_step step).awaits run.runs.tended.1 ih

/-! ## Asking once more -/

/-- A caller asks for a worker, gets in line, and looks whether it has to start one. -/
def asking (n : Nat) : List Label := [.prepare n, .queue (.caller n), .enter (.caller n)]

/-- The system in which a caller has asked for a worker and is in line. -/
def queued (s : System) (c : CallId) : System :=
  ((s.setCall c (.asking s.state.attempts)).setCall c (.waiting s.state.attempts)).lineUp c

/-- A step, and then more of them. -/
theorem trace_cons {s₁ : System} {ls : List Label} {h : List Event}
    (step : s.step l = some (s₁, r)) (rest : s₁.trace ls = some (h, s')) :
    s.trace (l :: ls) = some (⟨l, r⟩ :: h, s') := by
  unfold trace
  simp [step, rest]

/-- A caller has its turn at once where nobody else is in line. -/
theorem trace_asking {n : Nat} (free : s.call? (.caller n) = none) (line : s.line = [])
    (down : s.state.phase ≠ .ready)
    (taken : (s.queued (.caller n)).takeTurn (.caller n) s.state.attempts = (s', r)) :
    ∃ h, s.trace (asking n) = some (h, s') := by
  have asks : s.ask (.caller n) = (s.setCall (.caller n) (.asking s.state.attempts), none) := by
    unfold ask
    rw [State.observe_of_not_ready down]
  have stands : (s.queued (.caller n)).call? (.caller n) = some (.waiting s.state.attempts) :=
    call?_setCall_self ..
  have first : (s.queued (.caller n)).line.head? = some (.caller n) := by
    show (s.line ++ [CallId.caller n]).head? = some (.caller n)
    rw [line]
    rfl
  have ended : s'.trace [] = some ([], s') := rfl
  have entered := trace_cons (Step.enter stands first taken).step_eq ended
  have lined := trace_cons (Step.queue (call?_setCall_self ..)).step_eq entered
  exact ⟨_, trace_cons (Step.prepare free asks).step_eq lined⟩

/-- The adapter goes on: it is ready with a worker, or whoever asks for one next begins a start. -/
def GoesOn (s : System) : Prop :=
  (s.state.phase = .ready ∧ s.state.worker.isSome) ∨
  ∀ n, ∃ h s', s.trace (asking n) = some (h, s') ∧ s'.AtStart (.caller n) ∧
    s'.orders = s.orders ++ [s.state.attempts + 1]

/-- Once no call is under way, the adapter goes on unless it executes. -/
theorem goesOn_iff_phase (lined : s.ledger.Lined) (tended : s.ledger.Tended)
    (alone : ∀ c, s.call? c = none) : s.GoesOn ↔ s.state.phase ≠ .executing := by
  have line : s.line = [] := by
    rw [List.eq_nil_iff_forall_not_mem]
    intro c inLine
    have idle := duty_of_free (alone c)
    rcases (lined.mem_iff c).1 inLine with waits | ⟨t, starts⟩
    · rw [idle] at waits
      cases waits
    · rw [idle] at starts
      cases starts
  constructor
  · intro goes executing
    rcases goes with ⟨ready, -⟩ | begins
    · rw [executing] at ready
      cases ready
    · have down : s.state.phase ≠ .ready := by simp [executing]
      have running : (s.queued (.caller 0)).state.phase = .ready ∨
          (s.queued (.caller 0)).state.phase = .executing := .inr executing
      obtain ⟨h, gone⟩ := trace_asking (alone (.caller 0)) line down (takeTurn_of_running running)
      obtain ⟨h', s', took, ⟨k, t, stands, -⟩, -⟩ := begins 0
      rw [gone] at took
      cases took
      rw [call?_endCall, if_pos rfl] at stands
      cases stands
  · intro idle
    by_cases ready : s.state.phase = .ready
    · obtain ⟨w, worker, -⟩ := tended.worker_of_ready ready
      exact .inl ⟨ready, Option.isSome_iff_exists.2 ⟨w, worker⟩⟩
    · refine .inr fun n => ?_
      have stopped : ¬((s.queued (.caller n)).state.phase = .ready ∨
          (s.queued (.caller n)).state.phase = .executing) := not_or.2 ⟨ready, idle⟩
      -- the caller has seen all starts, so that it shares no failure
      have unshared : (s.queued (.caller n)).state.sharedFailure? s.state.attempts = none :=
        if_pos rfl
      obtain ⟨h, begun⟩ :=
        trace_asking (alone (.caller n)) line ready (takeTurn_of_not_shared stopped unshared)
      exact ⟨h, _, begun, ⟨_, _, call?_setCall_self .., rfl⟩, rfl⟩

/-! ## Waiting for nobody -/

/-- The adapter waits for nobody, and yet refuses everybody. -/
structure Wedged (s : System) : Prop where
  phase : s.state.phase = .executing
  unattended : ∀ c w, ¬s.Executes c w
  /-- Whatever is to be executed is refused as if something else was. -/
  busy : ∀ n code b, s.call? (.caller n) = none → (b.getD s.defaults).validate = .ok () →
    s.step (.execute n code b) = some (s, some (.executed (.error (.busy s.language))))
  /-- Whoever is the first in line is told that a worker is there. -/
  turn : ∀ c, s.line.head? = some c →
    s.step (.enter c) = some (s.endCall c, some (.initialized (.ok ())))

/-- A call executes something for the present generation if it works for it while the adapter
executes. -/
theorem exists_executes_iff (tended : s.ledger.Tended) (executing : s.state.phase = .executing) :
    (∃ w, s.Executes c w) ↔ s.ledger.Current c := by
  constructor
  · intro works
    obtain ⟨w, hc⟩ := works
    obtain ⟨t, runs, present⟩ := executes_iff.1 hc
    exact (Ledger.current_of_runs runs).2 present
  · intro current
    obtain ⟨w, -, only, -⟩ := tended.of_executing executing
    obtain ⟨t, runs⟩ := only c current
    exact ⟨w, executes_iff.2 ⟨t, runs, (Ledger.current_of_runs runs).1 current⟩⟩

/-- An adapter that waits for an execution that has been given up is wedged. -/
theorem wedged_of_awaits (lined : s.ledger.Lined) (tended : s.ledger.Tended)
    (apart : s.ledger.Apart) (awaits : s.ledger.Awaits .forsaken) : s.Wedged := by
  obtain ⟨executing, free⟩ := awaits
  have executing : s.state.phase = .executing := executing
  refine ⟨executing, ?_, ?_, ?_⟩
  · intro c w hc
    exact free c ((exists_executes_iff tended executing).1 ⟨w, hc⟩)
  · intro n code b vacant valid
    refine (Step.execute vacant ?_).step_eq
    unfold execute
    rw [valid, State.checkOut_of_executing executing]
  · intro c first
    have inLine : c ∈ s.line := List.mem_of_mem_head? first
    rcases (lined.mem_iff c).1 inLine with waits | ⟨t, starts⟩
    · obtain ⟨k, stands, duty⟩ := stands_of_duty waits (by simp)
      cases k with
      | waiting o => exact (Step.enter stands first (takeTurn_of_running (.inr executing))).step_eq
      | _ => cases duty
    · -- while there is something to kill nobody starts a worker
      obtain ⟨w, kill⟩ := tended.kill_of_executing executing
      exact absurd starts (apart w kill c t)

/-- Only a termination ends it, and until then no start begins. -/
theorem Step.forsaken (h : Step s l s' r) (tended : s.ledger.Tended)
    (awaits : s.ledger.Awaits .forsaken) (stays : l ≠ .terminate) :
    s'.ledger.Awaits .forsaken ∧ Event.isStart ⟨l, r⟩ = false := by
  have executing : s.state.phase = .executing := awaits.1
  have next := h.awaits tended awaits
  cases h with
  | terminate => exact absurd rfl stays
  | enter stands first taken =>
    rw [takeTurn_of_running (.inr executing)] at taken
    cases taken
    exact ⟨next, rfl⟩
  | execute free taken =>
    rcases execute_reply taken with ⟨-, ready, -⟩ | ⟨⟨e, rfl⟩, -⟩
    · rw [executing] at ready
      cases ready
    · exact ⟨next, rfl⟩
  | _ => exact ⟨next, rfl⟩

/-- Until a termination nothing changes of it. -/
theorem Traces.forsaken {language : String} {b : Budget} {past h : List Event}
    (run : Traces (new language b) past s) (awaits : s.ledger.Awaits .forsaken)
    (since : Traces s h s') (stays : ∀ e ∈ h, e.label ≠ .terminate) :
    s'.ledger.Awaits .forsaken ∧ startsIn h = 0 := by
  induction since with
  | refl => exact ⟨awaits, rfl⟩
  | @next h s₁ s₂ l r since step ih =>
    obtain ⟨before, none⟩ := ih fun e he => stays e (List.mem_append_left _ he)
    have tended := (run.runs.trans since.runs).tended.1
    have last : l ≠ .terminate := stays ⟨l, r⟩ (by simp)
    obtain ⟨now, unstarted⟩ := (Step.of_step step).forsaken tended before last
    refine ⟨now, ?_⟩
    unfold startsIn at none ⊢
    rw [List.countP_append, none]
    simp [unstarted]

/-- An adapter executes without an execution exactly when it waits for one that has been given up. -/
theorem stranded_iff_of_awaits (tended : s.ledger.Tended) (awaits : s.ledger.Awaits a) :
    (s.state.phase = .executing ∧ ∀ c w, ¬s.Executes c w) ↔ a = .forsaken := by
  constructor
  · intro stranded
    obtain ⟨executing, unattended⟩ := stranded
    cases a with
    | forsaken => rfl
    | nobody => exact absurd executing awaits
    | caller n =>
      obtain ⟨w, works⟩ := (exists_executes_iff tended executing).2 awaits.2
      exact absurd works (unattended (.caller n) w)
  · rintro rfl
    obtain ⟨executing, free⟩ := awaits
    refine ⟨executing, fun c w works => free c ?_⟩
    exact (exists_executes_iff tended executing).1 ⟨w, works⟩

/-- What the calls that callers have given up mean for the adapter, after the steps of a run. -/
structure Stranding (h : List Event) (s : System) : Prop where
  /-- The adapter executes without an execution exactly when the caller of the last one has given it
  up, and no termination has come since. -/
  stranded_iff : (s.state.phase = .executing ∧ ∀ c w, ¬s.Executes c w) ↔
    Awaited.after h = .forsaken
  /-- Nothing else keeps the adapter from going on once no call is under way: neither a start that has
  been given up nor an execution that a termination has overtaken. -/
  goesOn_iff : (∀ c, s.call? c = none) → (s.GoesOn ↔ Awaited.after h ≠ .forsaken)
  /-- Whatever comes after that, but for a termination: the adapter stays wedged, and no start
  begins. -/
  forever : Awaited.after h = .forsaken → ∀ h' s', Traces s h' s' →
    (∀ e ∈ h', e.label ≠ .terminate) → s'.Wedged ∧ startsIn h' = 0

/-- Whatever the calls of an adapter do, and wherever callers give them up: what strands the adapter is
an execution that is given up, that alone, and for ever. -/
theorem stranding_of_traces {language : String} {b : Budget} {h : List Event}
    (run : Traces (new language b) h s) : Stranding h s := by
  have awaits := run.awaits
  have lined := run.runs.lawful.toLined
  obtain ⟨tended, -⟩ := run.runs.tended
  have stranded_iff := stranded_iff_of_awaits tended awaits
  refine ⟨stranded_iff, ?_, ?_⟩
  · intro alone
    -- without calls the first condition is about the phase alone
    have unattended (c : CallId) (w : WorkerId) : ¬s.Executes c w := by
      rintro ⟨k, t, stands, -⟩
      rw [alone c] at stands
      cases stands
    rw [goesOn_iff_phase lined tended alone, not_iff_not, ← stranded_iff]
    exact (and_iff_left unattended).symm
  · intro forsaken h' s' since stays
    obtain ⟨still, unstarted⟩ := run.forsaken (forsaken ▸ awaits) since stays
    have reached := run.runs.trans since.runs
    obtain ⟨tended', apart⟩ := reached.tended
    exact ⟨wedged_of_awaits reached.lawful.toLined tended' apart still, unstarted⟩

/-- A worker is started, and the caller of its first execution gives it up. -/
def forsaking : List Label :=
  [.prepare 0, .queue (.caller 0), .enter (.caller 0), .plan 1, .wake (.caller 0), .launch (.caller 0),
    .deliver 0 (.event (.ready "5.4")), .listen (.caller 0), .settle (.caller 0),
    .execute 1 "f()" none, .wake (.caller 1), .send (.caller 1), .drop 1]

/-- No call is under way any more, and the adapter does not go on. -/
theorem stranding_of_traces_forsaking : ∃ h s,
    (new "lua" .standard).trace forsaking = some (h, s) ∧ (∀ c, s.call? c = none) ∧
    Awaited.after h = .forsaken ∧ ¬s.GoesOn ∧ Stranding h s := by
  have took := @Traces.of_trace (new "lua" .standard) _ forsaking _ rfl
  have stranding := stranding_of_traces took
  refine ⟨_, _, rfl, fun _ => rfl, rfl, ?_, stranding⟩
  rw [stranding.goesOn_iff fun _ => rfl]
  exact fun goes => goes rfl

end System

end SnippetRunner.Adapter
