import SnippetRunner.Proofs.Adapter.Alive
import SnippetRunner.Proofs.Adapter.Polling

/-!
# What a request to execute is answered

A request to execute is refused for its budget, because the adapter is executing something else, or
because no worker is ready, in this order, and then nothing has changed. Otherwise it is admitted: the
call returns a report and no failure, whatever its worker does and whenever the adapter is terminated,
and at the latest when somebody looks at it after its time is up.
-/

namespace SnippetRunner

/-- One of the limits of the budget is zero. -/
def Budget.HasZero (b : Budget) : Prop := b.timeout.nanos = 0 ∨ b.maxLines = 0 ∨ b.maxBytes = 0

theorem Budget.validate_eq_ok_iff_not_hasZero (b : Budget) : b.validate = .ok () ↔ ¬b.HasZero := by
  rw [validate_eq_ok_iff]
  unfold HasZero
  omega

namespace Adapter.System

open Worker (Ending)

variable {s s' : System} {c : CallId} {t : Ticket} {w : WorkerId} {x : Errand}
  {e : Option Worker.Execution} {k : Call} {l : Label} {r : Option Reply} {ending : Ending}

/-! ## Executions that have been admitted -/

/-- The call executes something, or has done so and has not returned. -/
def IsServed (s : System) (c : CallId) : Prop := ∃ k t w, s.call? c = some k ∧ k.duty = .runs t w

/-- A call that executes something goes on, if its execution has not come to its end, or it returns a
report. -/
theorem IsServed.own_cases (h : s.IsServed c) (step : Step s l s' r) (own : l.IsOwn c) :
    (l ≠ .settle c ∧ r = none ∧ s'.IsServed c ∧ ∃ t w x e, s.call? c = some (.executing t w x e)) ∨
    (l = .settle c ∧ (∃ q, r = some (.executed (.ok q))) ∧ s'.call? c = none) := by
  obtain ⟨k, t, w, stands, runs⟩ := h
  obtain ⟨mine, kept⟩ := own
  -- calls with another duty cannot be this one
  have other {d : CallId} {k' : Call} (mine : some d = some c) (stands' : s.call? d = some k')
      (apart : k'.duty ≠ .runs t w) : False := by
    obtain ⟨rfl, -⟩ := same_of_stands stands mine stands'
    exact apart runs
  have executing (going : k.going?.isSome = true) :
      ∃ t w x e, s.call? c = some (.executing t w x e) := by
    cases k with
    | executing t w x e => exact ⟨t, w, x, e, stands⟩
    | planning | readying => cases runs
    | _ => cases going
  cases step with
  | prepare free _ => exact absurd free (not_free_of_stands stands mine)
  | replace free _ _ => exact absurd free (not_free_of_stands stands mine)
  | execute free _ => exact absurd free (not_free_of_stands stands mine)
  | queue stands' => exact (other mine stands' nofun).elim
  | enter stands' _ _ => exact (other mine stands' nofun).elim
  | launch stands' _ _ => exact (other mine stands' nofun).elim
  | listen stands' _ _ => exact (other mine stands' nofun).elim
  | settleStart stands' _ => exact (other mine stands' nofun).elim
  | fail stands' starting _ _ =>
    exact (other mine stands' (by rw [duty_of_starting starting]; exact nofun)).elim
  | stop stands' starting _ =>
    exact (other mine stands' (by rw [duty_of_starting starting]; exact nofun)).elim
  | plan _ => cases mine
  | terminate => cases mine
  | deliver _ => cases mine
  | drop _ _ => exact absurd rfl (kept _)
  | wake stands' going _ =>
    obtain ⟨rfl, rfl⟩ := same_of_stands stands mine stands'
    exact .inl ⟨nofun, rfl, ⟨_, _, _, stands, runs⟩, executing (Option.isSome_of_mem going)⟩
  | rest stands' going _ =>
    obtain ⟨rfl, rfl⟩ := same_of_stands stands mine stands'
    exact .inl ⟨nofun, rfl, ⟨_, _, _, stands, runs⟩, executing going⟩
  | send stands' awake sent =>
    cases mine
    obtain ⟨b, -, rfl⟩ := send_cases sent
    exact .inl ⟨nofun, rfl, ⟨_, _, _, call?_setCall_self .., rfl⟩, _, _, _, _, stands'⟩
  | receive stands' awake taken =>
    cases mine
    obtain ⟨b, m, ms, e', -, -, ⟨-, rfl⟩ | ⟨fault, -, rfl⟩⟩ := receive_cases taken
    · exact .inl ⟨nofun, rfl, ⟨_, _, _, call?_setCall_self .., rfl⟩, _, _, _, _, stands'⟩
    · exact .inl ⟨nofun, rfl, ⟨_, _, _, call?_setCall_self .., rfl⟩, _, _, _, _, stands'⟩
  | abandon stands' may =>
    cases mine
    exact .inl ⟨nofun, rfl, ⟨_, _, _, call?_setCall_self .., rfl⟩, _, _, _, _, stands'⟩
  | settleExecution stands' =>
    cases mine
    exact .inr ⟨rfl, ⟨_, rfl⟩, call?_settleExecution_self ..⟩

/-- Until it returns or its caller gives it up, it goes on whoever takes steps. -/
theorem IsServed.runs {n : Nat} (h : s.IsServed (.caller n))
    (run : Runs (fun l => l ≠ .drop n ∧ l ≠ .settle (.caller n)) s s') : s'.IsServed (.caller n) := by
  refine run.keeps (P := fun s => s.IsServed (.caller n)) ?_ h
  intro s l s' r allowed h step
  by_cases mine : l.by? = some (.caller n)
  · -- of its own steps only the last one and giving up are not allowed
    have kept : ∀ m, l ≠ .drop m := by
      rintro m rfl
      cases mine
      exact allowed.1 rfl
    rcases h.own_cases step ⟨mine, kept⟩ with ⟨-, -, goesOn, -⟩ | ⟨last, -⟩
    · exact goesOn
    · exact absurd last allowed.2
  · obtain ⟨k, t, w, stands, runs⟩ := h
    exact ⟨k, t, w, (step.call?_eq mine).trans stands, runs⟩

/-- The only step left to an execution that has come to its end is to return a report of it. -/
theorem returns_of_executed (stands : s.call? c = some (.executed t w x e ending)) :
    Returns c (.executed (.ok (ending.report x.budget (x.transcript e).output))) 1 s := by
  intro s' run
  have stands' : s'.call? c = some (.executed t w x e ending) := by
    refine run.keeps (P := fun s => s.call? c = some (.executed t w x e ending)) ?_ stands
    exact fun s l s' r other there step => (step.call?_eq other).trans there
  refine ⟨⟨.settle c, _, _, ⟨rfl, nofun⟩, (Step.settleExecution stands').step_eq⟩, ?_⟩
  intro l s'' r own step
  have served : s'.IsServed c := ⟨_, t, w, stands', rfl⟩
  rcases served.own_cases (.of_step step) own with ⟨-, -, -, u, v, y, f, goesOn⟩ | ⟨rfl, -, gone⟩
  · rw [stands'] at goesOn
    cases goesOn
  · rw [(Step.settleExecution stands').step_eq] at step
    cases step
    exact .inl ⟨rfl, gone⟩

/-- It comes to an end when somebody looks at it and a termination has overtaken it or its time is
up. -/
theorem IsServed.returns_of_due {language : String} {defaults : Budget} {p : Bool}
    (reached : Runs (fun _ => True) (new language defaults) s) (h : s.IsServed c) (v : Sight)
    (due : s.isStopped c = true ∨ p = true) : ∃ q, Returns c (.executed (.ok q)) 1 (s.poll c v p) := by
  obtain ⟨k, t, w, stands, runs⟩ := h
  cases k with
  | executing u v' x e =>
    obtain ⟨e', outcome, looked, ended⟩ := exists_looked_poll (v := v) (p := p) stands
      (reached.known stands rfl)
    obtain ⟨ending, rfl⟩ := Option.isSome_iff_exists.1 (ended due)
    exact ⟨_, returns_of_executed looked.stands⟩
  | executed u v' x e ending =>
    rw [poll_of_executed stands]
    exact ⟨_, returns_of_executed stands⟩
  | _ => cases runs

/-! ## Requests -/

/-- The call of a caller returns a report and no failure, however the others and its worker go on, as
long as its caller does not give it up. -/
structure Reports (s : System) (n : Nat) : Prop where
  /-- It has not returned before its last step, and what it returns then is a report. -/
  own : ∀ s₁ l s₂ r, Runs (fun l => l ≠ .drop n ∧ l ≠ .settle (.caller n)) s s₁ →
    l.IsOwn (.caller n) → s₁.step l = some (s₂, r) →
      (l ≠ .settle (.caller n) ∧ r = none) ∨
      (l = .settle (.caller n) ∧ (∃ q, r = some (.executed (.ok q))) ∧ s₂.call? (.caller n) = none)
  /-- One step is left when somebody has looked at it and a termination had overtaken it or its time
  was up, whatever there was to see of its worker. -/
  last : ∀ s₁ v p, Runs (fun l => l ≠ .drop n ∧ l ≠ .settle (.caller n)) s s₁ →
    s₁.isStopped (.caller n) = true ∨ p = true →
      ∃ q, Returns (.caller n) (.executed (.ok q)) 1 (s₁.poll (.caller n) v p)

/-- How a request to execute under a budget is answered. -/
structure Answered (language : String) (s : System) (n : Nat) (b : Budget) (s' : System)
    (r : Option Reply) : Prop where
  /-- The budget is looked at first, whatever the adapter does. -/
  invalid : (∃ reason, r = some (.executed (.error (.invalidOptions reason)))) ↔ b.HasZero
  busy : ¬b.HasZero →
    (r = some (.executed (.error (.busy language))) ↔ s.state.phase = .executing)
  notInitialized : ¬b.HasZero → s.state.phase ≠ .executing →
    (r = some (.executed (.error (.notInitialized language))) ↔ s.state.phase ≠ .ready)
  admitted : r = none ↔ ¬b.HasZero ∧ s.state.phase = .ready
  /-- A request that is refused leaves the adapter, its calls and the lines to its workers alone. -/
  unchanged : r ≠ none → s' = s
  reports : r = none → s'.Reports n

/-- An execution that has been admitted reports. -/
theorem IsServed.reports {language : String} {defaults : Budget} {n : Nat}
    (reached : Runs (fun _ => True) (new language defaults) s) (h : s.IsServed (.caller n)) :
    s.Reports n where
  own := by
    intro s₁ l s₂ r run own step
    rcases (h.runs run).own_cases (.of_step step) own with ⟨before, none, -, -⟩ | returned
    · exact .inl ⟨before, none⟩
    · exact .inr returned
  last := by
    intro s₁ v p run due
    have reached₁ := reached.trans (run.mono fun _ _ => trivial)
    exact (h.runs run).returns_of_due reached₁ v due

section
variable {code : String} {b : Budget} {f : Failure} {n : Nat} {language : String} {defaults : Budget}

theorem execute_of_invalid (invalid : b.validate = .error f) :
    s.execute c code b = (s, some (.executed (.error f))) := by
  unfold execute
  rw [invalid]

theorem execute_of_executing (valid : b.validate = .ok ()) (executing : s.state.phase = .executing) :
    s.execute c code b = (s, some (.executed (.error (.busy s.language)))) := by
  unfold execute
  rw [valid, State.checkOut_of_executing executing]

theorem execute_of_idle (valid : b.validate = .ok ()) (waits : s.state.phase ≠ .ready)
    (idle : s.state.phase ≠ .executing) :
    s.execute c code b = (s, some (.executed (.error (.notInitialized s.language)))) := by
  unfold execute
  rw [valid, State.checkOut_of_idle waits idle]

theorem execute_of_ready (valid : b.validate = .ok ()) (ready : s.state.phase = .ready)
    (slot : s.state.worker = some w) :
    s.execute c code b =
      (({ s with state := { s.state with phase := .executing, worker := none } }).setCall c
        (.executing s.state.ticket w ⟨code, b⟩ none), none) := by
  unfold execute
  rw [valid, State.checkOut_of_ready ready slot]

/-- A request has been refused, and the failure is the one that it is to be. -/
theorem Answered.of_refused (invalid : (∃ reason, f = .invalidOptions reason) ↔ b.HasZero)
    (busy : ¬b.HasZero → (f = .busy language ↔ s.state.phase = .executing))
    (notInitialized : ¬b.HasZero → s.state.phase ≠ .executing →
      (f = .notInitialized language ↔ s.state.phase ≠ .ready))
    (refused : b.HasZero ∨ s.state.phase ≠ .ready) :
    Answered language s n b s (some (.executed (.error f))) where
  invalid := by simpa using invalid
  busy positive := by simpa using busy positive
  notInitialized positive idle := by simpa using notInitialized positive idle
  admitted := by
    refine iff_of_false nofun ?_
    rintro ⟨positive, ready⟩
    rcases refused with zero | waits
    · exact positive zero
    · exact waits ready
  unchanged _ := rfl
  reports := nofun

end

/-- Whatever has happened, a request to execute is refused for its budget, because something else is
executed, or because no worker is ready, and then nothing changes; otherwise it is admitted, and
returns a report. -/
theorem answered_of_runs {language : String} {defaults : Budget} {n : Nat}
    (run : Runs (fun _ => True) (new language defaults) s) (free : s.call? (.caller n) = none)
    (code : String) (budget : Option Budget) :
    ∃ s' r, s.step (.execute n code budget) = some (s', r) ∧
      Answered language s n (budget.getD defaults) s' r := by
  obtain ⟨rfl, rfl⟩ : s.language = language ∧ s.defaults = defaults := by
    refine run.keeps (P := fun s => s.language = language ∧ s.defaults = defaults) ?_ ⟨rfl, rfl⟩
    exact fun _ _ _ _ _ same step => ⟨step.language.trans same.1, step.defaults.trans same.2⟩
  have taken : s.step (.execute n code budget) =
      some (s.execute (.caller n) code (budget.getD s.defaults)) := by
    simp [step, free]
  generalize budget.getD s.defaults = b at taken ⊢
  cases valid : b.validate with
  | error f =>
    obtain ⟨reason, rfl⟩ := Budget.invalidOptions_of_validate valid
    have zero : b.HasZero := by
      by_contra positive
      rw [b.validate_eq_ok_iff_not_hasZero.2 positive] at valid
      cases valid
    refine ⟨_, _, taken.trans (congrArg some (execute_of_invalid valid)), ?_⟩
    apply Answered.of_refused
    · exact iff_of_true ⟨reason, rfl⟩ zero
    · exact fun positive => absurd zero positive
    · exact fun positive => absurd zero positive
    · exact .inl zero
  | ok =>
    have positive := b.validate_eq_ok_iff_not_hasZero.1 valid
    by_cases executing : s.state.phase = .executing
    · refine ⟨_, _, taken.trans (congrArg some (execute_of_executing valid executing)), ?_⟩
      apply Answered.of_refused
      · exact iff_of_false (by simp) positive
      · exact fun _ => iff_of_true rfl executing
      · exact fun _ idle => absurd executing idle
      · exact .inr (by simp [executing])
    by_cases ready : s.state.phase = .ready
    · -- the adapter is never ready without a worker
      obtain ⟨w, slot, -⟩ := run.tended.1.worker_of_ready ready
      have admitted := taken.trans (congrArg some (execute_of_ready valid ready slot))
      refine ⟨_, _, admitted, ?_⟩
      refine ⟨?_, ?_, ?_, ?_, ?_, ?_⟩
      · exact iff_of_false (by simp) positive
      · exact fun _ => iff_of_false (by simp) executing
      · exact fun _ _ => iff_of_false (by simp) (not_not.2 ready)
      · exact iff_of_true rfl ⟨positive, ready⟩
      · exact fun replied => absurd rfl replied
      · intro _
        exact IsServed.reports (run.next trivial admitted) ⟨_, _, _, call?_setCall_self .., rfl⟩
    · refine ⟨_, _, taken.trans (congrArg some (execute_of_idle valid ready executing)), ?_⟩
      apply Answered.of_refused
      · exact iff_of_false (by simp) positive
      · exact fun _ => iff_of_false (by simp) executing
      · exact fun _ _ => iff_of_true rfl ready
      · exact .inr ready

/-- A caller executes something, and its execution has been sent. -/
def occupied : List Label :=
  [.prepare 0, .queue (.caller 0), .enter (.caller 0), .plan 1, .wake (.caller 0), .launch (.caller 0),
    .deliver 0 (.event (.ready "5.4")), .listen (.caller 0), .settle (.caller 0),
    .execute 1 "one" none, .wake (.caller 1), .send (.caller 1)]

/-- Another caller is refused. -/
theorem answered_of_runs_occupied : ∃ s, (new "lua" .standard).follow occupied = some s ∧
    s.call? (.caller 2) = none ∧ s.state.phase = .executing ∧
    ∃ s' r, s.step (.execute 2 "two" none) = some (s', r) ∧
      Answered "lua" s 2 ((none : Option Budget).getD .standard) s' r := by
  refine ⟨_, rfl, rfl, rfl, ?_⟩
  have run := @Runs.of_follow (fun _ => True) (new "lua" .standard) _ occupied rfl
    fun _ _ => trivial
  exact answered_of_runs run rfl "two" none

end Adapter.System

end SnippetRunner
