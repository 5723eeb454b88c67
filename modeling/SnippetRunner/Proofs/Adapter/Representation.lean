import SnippetRunner.Proofs.Adapter.Tenure

/-!
# The state of an adapter tells what its calls do

As long as no caller gives up a call, the parts of the state fit together and agree with the calls
under way: the phase says which call, if any, works for the present generation, the worker is in the
adapter exactly while it is ready, and what a termination would kill is the worker that is there or
the one that the present execution has. Calls that a termination has overtaken may go on for long,
and it does not matter what they do.
-/

namespace SnippetRunner.Adapter

namespace Ledger

variable {g g' : Ledger} {c d : CallId} {t : Ticket} {w : WorkerId} {language : String}

/-- How the state and the duties fit together, by the phase. -/
inductive Serves (g : Ledger) : Prop where
  | idle (phase : g.state.phase = .uninitialized) (worker : g.state.worker = none)
    (kill : g.state.kill = none) (free : ∀ d, ¬g.Current d)
  | starting {c : CallId} {t : Ticket} (phase : g.state.phase = .initializing)
    (worker : g.state.worker = none) (kill : g.state.kill = none) (starts : g.duty c = .starts t)
    (only : ∀ d, g.Current d ↔ d = c)
  | ready {w : WorkerId} (phase : g.state.phase = .ready) (worker : g.state.worker = some w)
    (kill : g.state.kill = some w) (free : ∀ d, ¬g.Current d)
  | executing {c : CallId} {t : Ticket} {w : WorkerId} (phase : g.state.phase = .executing)
    (worker : g.state.worker = none) (kill : g.state.kill = some w) (runs : g.duty c = .runs t w)
    (only : ∀ d, g.Current d ↔ d = c)

/-- Where the phase says that a call works for the present generation, one does. -/
def Busy (g : Ledger) : Prop :=
  g.state.phase = .initializing ∨ g.state.phase = .executing → ∃ c, g.Current c

namespace Busy

/-- There is nothing to show where the phase says that nobody works. -/
theorem of_phase (h : g.state.phase = .uninitialized ∨ g.state.phase = .ready) : Busy g := by
  intro works
  rcases h with phase | phase <;> simp [phase] at works

/-- A call goes that works for no present generation. -/
theorem without (h : Busy g) (gone : ¬g.Current c) {σ : State} (phase : σ.phase = g.state.phase)
    (generation : σ.generation = g.state.generation) : Busy { g.without c with state := σ } := by
  intro works
  have works : σ.phase = .initializing ∨ σ.phase = .executing := works
  rw [phase] at works
  obtain ⟨d, current⟩ := h works
  have other : d ≠ c := by
    intro same
    subst same
    exact gone current
  obtain ⟨t, ticket, present⟩ := current_without.2 ⟨other, current⟩
  exact ⟨d, t, ticket, present.trans generation.symm⟩

/-- An execution that the adapter does not await is one that a termination has overtaken. -/
theorem outdated_of_not_awaits (tended : Tended g) (runs : g.duty c = .runs t w)
    (unwanted : g.state.awaits t = false) : ¬g.Current c := by
  rw [current_of_runs runs]
  intro present
  have executing := (tended.of_runs runs present).1
  have awaited : g.state.awaits t = true := State.awaits_eq_true_iff.2 ⟨present, executing⟩
  rw [unwanted] at awaited
  cases awaited

/-- A start comes to its end. -/
theorem leave (h : Busy g) (starts : g.duty c = .starts t) (q : Except Failure WorkerId) :
    Busy { g.without c with state := (g.state.leave language t q).2 } := by
  cases outdated : g.state.isOutdated t with
  | true =>
    rw [State.leave_of_outdated outdated]
    refine h.without ?_ rfl rfl
    rw [current_of_starts starts]
    exact State.isOutdated_eq_true_iff.1 outdated
  | false =>
    cases q with
    | ok w =>
      rw [State.leave_of_ok outdated]
      exact .of_phase (.inr rfl)
    | error e =>
      rw [State.leave_of_error outdated]
      exact .of_phase (.inl rfl)

/-- Every move leaves somebody at work where the phase says so. -/
theorem move (h : Busy g) (tended : Tended g) (m : Move language g g') : Busy g' := by
  cases m with
  | @join c idle =>
    intro works
    obtain ⟨d, t, ticket, present⟩ := h works
    refine ⟨d, t, ?_, present⟩
    have other : d ≠ c := by
      intro same
      subst same
      exact not_current_of_idle idle ⟨t, ticket, present⟩
    exact (congrArg Duty.ticket? (duty_assign_of_ne g .waits other)).trans ticket
  | skip waits => exact h.without (not_current_of_waits waits) rfl rfl
  | @begin c _ _ _ _ =>
    exact fun _ => ⟨c, g.state.ticket, congrArg Duty.ticket? (duty_assign_self ..), rfl⟩
  | leave starts => exact h.leave starts _
  | @checkOut c w _ ready worker =>
    rw [State.checkOut_of_ready ready worker]
    exact fun _ => ⟨c, g.state.ticket, congrArg Duty.ticket? (duty_assign_self ..), rfl⟩
  | bare ready worker =>
    rw [State.checkOut_of_bare ready worker]
    exact .of_phase (.inl rfl)
  | @checkIn c t w runs =>
    cases awaited : g.state.awaits t with
    | true =>
      rw [State.checkIn_of_awaits awaited]
      exact .of_phase (.inr rfl)
    | false =>
      rw [State.checkIn_of_not_awaits awaited]
      exact h.without (outdated_of_not_awaits tended runs awaited) rfl rfl
  | @discard c t w runs =>
    cases awaited : g.state.awaits t with
    | true =>
      rw [State.discard_of_awaits awaited]
      exact .of_phase (.inl rfl)
    | false =>
      rw [State.discard_of_not_awaits awaited]
      exact h.without (outdated_of_not_awaits tended runs awaited) rfl rfl
  | terminate => exact .of_phase (.inl rfl)

end Busy

namespace Serves

/-- What the phase says of the rest, and that somebody works where it says so. -/
theorem of_tended (h : Tended g) (lined : Lined g) (busy : Busy g) : Serves g := by
  cases h with
  | idle phase worker kill free => exact .idle phase worker kill free
  | ready phase worker kill free => exact .ready phase worker kill free
  | starting phase worker kill only =>
    obtain ⟨c, current⟩ := busy (.inl phase)
    obtain ⟨t, starts⟩ := only c current
    refine .starting phase worker kill starts fun d => ⟨fun hd => ?_, fun same => same ▸ current⟩
    obtain ⟨u, starts'⟩ := only d hd
    exact lined.unique starts' starts
  | executing phase worker kill only unique =>
    obtain ⟨c, current⟩ := busy (.inr phase)
    obtain ⟨t, runs⟩ := only c current
    exact .executing phase worker kill runs fun d =>
      ⟨fun hd => unique d c hd current, fun same => same ▸ current⟩

theorem tended (h : Serves g) : Tended g := by
  cases h with
  | idle phase worker kill free => exact .idle phase worker kill free
  | ready phase worker kill free => exact .ready phase worker kill free
  | @starting c t phase worker kill starts only =>
    refine .starting phase worker kill fun d hd => ⟨t, ?_⟩
    rw [(only d).1 hd, starts]
  | @executing c t w phase worker kill runs only =>
    refine .executing phase worker kill (fun d hd => ⟨t, ?_⟩) fun d e hd he => ?_
    · rw [(only d).1 hd, runs]
    · exact ((only d).1 hd).trans ((only e).1 he).symm

theorem busy (h : Serves g) : Busy g := by
  cases h with
  | idle phase _ _ _ => exact .of_phase (.inl phase)
  | ready phase _ _ _ => exact .of_phase (.inr phase)
  | starting _ _ _ _ only => exact fun _ => ⟨_, (only _).2 rfl⟩
  | executing _ _ _ _ only => exact fun _ => ⟨_, (only _).2 rfl⟩

/-- Every move keeps the state and the duties in agreement. -/
theorem move (h : Serves g) (lawful : Lawful g) (m : Move language g g') : Serves g' :=
  .of_tended (h.tended.move lawful m) (lawful.toLined.move m) (h.busy.move h.tended m)

end Serves

end Ledger

/-! ## What holds between any two sections -/

namespace System

variable {s s' : System} {c d : CallId} {w : WorkerId} {l : Label} {r : Option Reply}

/-- A call executes something for the present generation on a worker. -/
def Executes (s : System) (c : CallId) (w : WorkerId) : Prop :=
  ∃ k t, s.call? c = some k ∧ k.duty = .runs t w ∧ t.generation = s.state.generation

/-- A call starts a worker for the present generation. -/
def Starts (s : System) (c : CallId) : Prop :=
  ∃ k t, s.call? c = some k ∧ k.duty = .starts t ∧ t.generation = s.state.generation

/-- How the parts of an adapter's state fit together and agree with the calls under way. -/
structure Represents (s : System) : Prop where
  /-- The worker is in the adapter exactly while it is ready. -/
  worker_iff : s.state.worker.isSome ↔ s.state.phase = .ready
  /-- There is something to kill exactly while the adapter is ready or executes. -/
  kill_iff : s.state.kill.isSome ↔ s.state.phase = .ready ∨ s.state.phase = .executing
  /-- While the adapter is ready, that is its worker. -/
  kill_of_ready : s.state.phase = .ready → s.state.kill = s.state.worker
  /-- While it executes, that is the worker of the present execution. -/
  kill_of_executes : ∀ c w, s.Executes c w → s.state.kill = some w
  executing_iff : s.state.phase = .executing ↔ ∃ c w, s.Executes c w
  executes_unique : ∀ c d v w, s.Executes c v → s.Executes d w → c = d
  /-- The call that starts a worker for the present generation has the turn. -/
  initializing_iff : s.state.phase = .initializing ↔ ∃ c, s.line.head? = some c ∧ s.Starts c
  starts_turn : ∀ c, s.Starts c → s.line.head? = some c
  not_terminated : s.state.phase ≠ .terminated
  /-- An adapter that is ready has a worker to give: it does not find itself without one. -/
  checkOut_of_ready : s.state.phase = .ready → ∃ w, s.state.worker = some w ∧
    s.state.checkOut s.language =
      (.ok (w, s.state.ticket), { s.state with phase := .executing, worker := none })

theorem executes_iff : s.Executes c w ↔
    ∃ t, s.ledger.duty c = .runs t w ∧ t.generation = s.state.generation := by
  constructor
  · intro runs
    obtain ⟨k, t, hk, hd, present⟩ := runs
    exact ⟨t, (duty_of_stands hk).trans hd, present⟩
  · intro runs
    obtain ⟨t, hd, present⟩ := runs
    obtain ⟨k, hk, same⟩ := stands_of_duty hd (by simp)
    exact ⟨k, t, hk, same, present⟩

theorem starts_iff : s.Starts c ↔
    ∃ t, s.ledger.duty c = .starts t ∧ t.generation = s.state.generation := by
  constructor
  · intro starts
    obtain ⟨k, t, hk, hd, present⟩ := starts
    exact ⟨t, (duty_of_stands hk).trans hd, present⟩
  · intro starts
    obtain ⟨t, hd, present⟩ := starts
    obtain ⟨k, hk, same⟩ := stands_of_duty hd (by simp)
    exact ⟨k, t, hk, same, present⟩

/-- The agreement of the ledger, spelled out. -/
theorem represents_of_serves (h : s.ledger.Serves) (lined : s.ledger.Lined) : Represents s where
  worker_iff := by cases h <;> simp_all [ledger]
  kill_iff := by cases h <;> simp_all [ledger]
  kill_of_ready ready := by
    obtain ⟨w, worker, kill⟩ := h.tended.worker_of_ready ready
    exact kill.trans worker.symm
  kill_of_executes c w hc := by
    obtain ⟨t, duty, present⟩ := executes_iff.1 hc
    exact (h.tended.of_runs duty present).2.2.1
  executing_iff := by
    constructor
    · intro executing
      cases h with
      | idle phase _ _ _ => simp_all [ledger]
      | starting phase _ _ _ _ => simp_all [ledger]
      | ready phase _ _ _ => simp_all [ledger]
      | @executing c t w _ _ _ runs only =>
        exact ⟨c, w, executes_iff.2 ⟨t, runs, (Ledger.current_of_runs runs).1 ((only c).2 rfl)⟩⟩
    · intro works
      obtain ⟨c, w, hc⟩ := works
      obtain ⟨t, duty, present⟩ := executes_iff.1 hc
      exact (h.tended.of_runs duty present).1
  executes_unique c d v w hc hd := by
    obtain ⟨t, duty, present⟩ := executes_iff.1 hc
    obtain ⟨u, duty', present'⟩ := executes_iff.1 hd
    obtain ⟨-, -, -, only⟩ := h.tended.of_runs duty present
    exact (only d ((Ledger.current_of_runs duty').2 present')).symm
  initializing_iff := by
    constructor
    · intro initializing
      cases h with
      | idle phase _ _ _ => simp_all [ledger]
      | ready phase _ _ _ => simp_all [ledger]
      | executing phase _ _ _ _ => simp_all [ledger]
      | @starting c t _ _ _ starts only =>
        have present := (Ledger.current_of_starts starts).1 ((only c).2 rfl)
        exact ⟨c, lined.first c t starts, starts_iff.2 ⟨t, starts, present⟩⟩
    · intro works
      obtain ⟨c, -, hc⟩ := works
      obtain ⟨t, duty, present⟩ := starts_iff.1 hc
      exact (h.tended.of_starts lined duty present).1
  starts_turn c hc := by
    obtain ⟨t, duty, -⟩ := starts_iff.1 hc
    exact lined.first c t duty
  not_terminated := by cases h <;> simp_all [ledger]
  checkOut_of_ready ready := by
    obtain ⟨w, worker, -⟩ := h.tended.worker_of_ready ready
    exact ⟨w, worker, State.checkOut_of_ready ready worker⟩

/-- A new adapter has neither worker nor calls. -/
theorem serves_new (language : String) (b : Budget) : (new language b).ledger.Serves := by
  refine .idle rfl rfl rfl ?_
  intro d current
  obtain ⟨t, ht, -⟩ := current
  cases ht

/-- Every step but giving up a call keeps the state and the duties in agreement. -/
theorem Step.serves (h : Step s l s' r) (kept : ∀ n, l ≠ .drop n) (lawful : s.ledger.Lawful)
    (hs : s.ledger.Serves) : s'.ledger.Serves := by
  rcases h.move with same | moved | ⟨n, dropped, -⟩
  · rw [same]
    exact hs
  · exact hs.move lawful moved
  · exact absurd dropped (kept n)

/-- Whatever the calls of an adapter do, and in which order their steps are taken: unless a caller
gives up a call, the parts of the state fit together and agree with the calls under way. -/
theorem represents_of_runs {language : String} {b : Budget}
    (run : Runs (fun l => ∀ n, l ≠ .drop n) (new language b) s) : Represents s := by
  have both : s.ledger.Lawful ∧ s.ledger.Serves := by
    refine run.keeps (P := fun s => s.ledger.Lawful ∧ s.ledger.Serves) ?_
      ⟨lawful_new language b, serves_new language b⟩
    intro s l s' r kept hs step
    exact ⟨step.lawful hs.1, step.serves kept hs.1 hs.2⟩
  exact represents_of_serves both.2 both.1.toLined

/-- An execution is overtaken by a termination, and another one begins on the next worker. -/
def overtaking : List Label :=
  [.prepare 0, .queue (.caller 0), .enter (.caller 0), .plan 1, .wake (.caller 0), .launch (.caller 0),
    .deliver 0 (.event (.ready "5.4")), .listen (.caller 0), .settle (.caller 0),
    .execute 1 "f()" none, .terminate,
    .prepare 2, .queue (.caller 2), .enter (.caller 2), .plan 2, .wake (.caller 2), .launch (.caller 2),
    .deliver 1 (.event (.ready "5.4")), .listen (.caller 2), .settle (.caller 2),
    .execute 3 "g()" none]

/-- The execution that has been overtaken goes on beside the present one. -/
theorem represents_of_runs_overtaking : ∃ s, (new "lua" .standard).follow overtaking = some s ∧
    s.Executes (.caller 3) 1 ∧ (s.call? (.caller 1)).isSome ∧ Represents s := by
  refine ⟨_, rfl, ⟨_, _, rfl, rfl, rfl⟩, rfl, ?_⟩
  have run := @Runs.of_follow (fun l => ∀ n, l ≠ .drop n) (new "lua" .standard) _ overtaking rfl
    (by simp [overtaking])
  exact represents_of_runs run

end System

end SnippetRunner.Adapter
