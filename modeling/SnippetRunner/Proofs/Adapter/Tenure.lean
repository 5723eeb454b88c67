import SnippetRunner.Proofs.Adapter.Ledger

/-!
# Who works for the present generation

At most one call at a time works for the present generation, and the phase says what it does: it starts
a worker, or it runs the one that a termination would kill. That holds also where callers give up
their calls; the phase may then go on saying that somebody works who has gone, but it never says less
than there is. A start that a termination has overtaken has the turn until its end, so that until
then the adapter has no other worker: while there is something to kill, nobody starts a worker.
-/

namespace SnippetRunner.Adapter.Ledger

variable {g g' : Ledger} {c d : CallId} {t : Ticket} {w : WorkerId} {language : String}

/-- A call works for the present generation. -/
def Current (g : Ledger) (c : CallId) : Prop :=
  ∃ t, (g.duty c).ticket? = some t ∧ t.generation = g.state.generation

/-- No call starts a worker, for whichever generation. -/
def Unstarted (g : Ledger) : Prop := ∀ d t, g.duty d ≠ .starts t

/-! ## Calls of the present generation -/

theorem current_of_starts (h : g.duty c = .starts t) :
    g.Current c ↔ t.generation = g.state.generation := by
  simp [Current, h, Duty.ticket?]

theorem current_of_runs (h : g.duty c = .runs t w) :
    g.Current c ↔ t.generation = g.state.generation := by
  simp [Current, h, Duty.ticket?]

theorem not_current_of_idle (h : g.duty c = .idle) : ¬g.Current c := by
  simp [Current, h, Duty.ticket?]

theorem not_current_of_waits (h : g.duty c = .waits) : ¬g.Current c := by
  simp [Current, h, Duty.ticket?]

/-- Where a call is gone, the others work as before. -/
theorem current_without : (g.without c).Current d ↔ d ≠ c ∧ g.Current d := by
  by_cases hd : d = c
  · subst hd
    simp [Current, Duty.ticket?]
  · simp [Current, duty_without_of_ne _ hd, hd]

/-- A call that takes up a duty with the present ticket works, and the others work as before. -/
theorem current_assign {e : Duty} (present : e.ticket? = some g.state.ticket) :
    (g.assign c e).Current d ↔ d = c ∨ g.Current d := by
  by_cases hd : d = c
  · subst hd
    simp [Current, present, State.ticket]
  · simp [Current, duty_assign_of_ne _ _ hd, hd]

/-- Where a call is gone, no other one has begun to start a worker. -/
theorem Unstarted.without (h : g.Unstarted) (c : CallId) : (g.without c).Unstarted := by
  intro d t starts
  by_cases hd : d = c
  · subst hd
    rw [duty_without_self] at starts
    cases starts
  · rw [duty_without_of_ne _ hd] at starts
    exact h d t starts

/-- A call that takes up another duty than to start a worker does not begin to start one. -/
theorem Unstarted.assign (h : g.Unstarted) {e : Duty} (other : ∀ t, e ≠ .starts t) :
    (g.assign c e).Unstarted := by
  intro d t starts
  by_cases hd : d = c
  · subst hd
    rw [duty_assign_self] at starts
    exact other t starts
  · rw [duty_assign_of_ne _ _ hd] at starts
    exact h d t starts

/-- When the only start has come to its end, no call starts a worker. -/
theorem Lined.unstarted_without (h : Lined g) (starts : g.duty c = .starts t) :
    (g.without c).Unstarted := by
  intro d u starts'
  by_cases hd : d = c
  · subst hd
    rw [duty_without_self] at starts'
    cases starts'
  · rw [duty_without_of_ne _ hd] at starts'
    exact hd (h.unique starts' starts)

/-! ## The law -/

/-- What the phase says of the rest of the state and of the calls. -/
inductive Tended (g : Ledger) : Prop where
  | idle (phase : g.state.phase = .uninitialized) (worker : g.state.worker = none)
    (kill : g.state.kill = none) (free : ∀ d, ¬g.Current d)
  | starting (phase : g.state.phase = .initializing) (worker : g.state.worker = none)
    (kill : g.state.kill = none) (only : ∀ d, g.Current d → ∃ t, g.duty d = .starts t)
  | ready {w : WorkerId} (phase : g.state.phase = .ready) (worker : g.state.worker = some w)
    (kill : g.state.kill = some w) (free : ∀ d, ¬g.Current d)
  | executing {w : WorkerId} (phase : g.state.phase = .executing) (worker : g.state.worker = none)
    (kill : g.state.kill = some w) (only : ∀ d, g.Current d → ∃ t, g.duty d = .runs t w)
    (unique : ∀ d e, g.Current d → g.Current e → d = e)

namespace Tended

/-- A start for the present generation is the only call that works for it. -/
theorem of_starts (h : Tended g) (lined : Lined g) (starts : g.duty c = .starts t)
    (present : t.generation = g.state.generation) :
    g.state.phase = .initializing ∧ g.state.worker = none ∧ g.state.kill = none ∧
      ∀ d, g.Current d → d = c := by
  have current : g.Current c := (current_of_starts starts).2 present
  cases h with
  | idle _ _ _ free => exact absurd current (free c)
  | ready _ _ _ free => exact absurd current (free c)
  | executing _ _ _ only _ =>
    obtain ⟨u, runs⟩ := only c current
    rw [starts] at runs
    cases runs
  | starting phase worker kill only =>
    refine ⟨phase, worker, kill, ?_⟩
    intro d hd
    obtain ⟨u, starts'⟩ := only d hd
    exact lined.unique starts' starts

/-- An execution for the present generation is the only call that works for it. -/
theorem of_runs (h : Tended g) (runs : g.duty c = .runs t w)
    (present : t.generation = g.state.generation) :
    g.state.phase = .executing ∧ g.state.worker = none ∧ g.state.kill = some w ∧
      ∀ d, g.Current d → d = c := by
  have current : g.Current c := (current_of_runs runs).2 present
  cases h with
  | idle _ _ _ free => exact absurd current (free c)
  | ready _ _ _ free => exact absurd current (free c)
  | starting _ _ _ only =>
    obtain ⟨u, starts⟩ := only c current
    rw [runs] at starts
    cases starts
  | @executing v phase worker kill only unique =>
    obtain ⟨u, runs'⟩ := only c current
    rw [runs] at runs'
    cases runs'
    exact ⟨phase, worker, kill, fun d hd => unique d c hd current⟩

/-- An adapter that is ready has a worker, and that is the one that a termination would kill. -/
theorem worker_of_ready (h : Tended g) (ready : g.state.phase = .ready) :
    ∃ w, g.state.worker = some w ∧ g.state.kill = some w := by
  cases h with
  | idle phase _ _ _ => simp [phase] at ready
  | starting phase _ _ _ => simp [phase] at ready
  | executing phase _ _ _ _ => simp [phase] at ready
  | ready _ worker kill _ => exact ⟨_, worker, kill⟩

/-- While the adapter executes there is a worker to kill, and at most one call works for the present
generation: it runs that worker. -/
theorem of_executing (h : Tended g) (executing : g.state.phase = .executing) :
    ∃ w, g.state.kill = some w ∧ (∀ d, g.Current d → ∃ t, g.duty d = .runs t w) ∧
      ∀ d e, g.Current d → g.Current e → d = e := by
  cases h with
  | idle phase _ _ _ => simp [phase] at executing
  | starting phase _ _ _ => simp [phase] at executing
  | ready phase _ _ _ => simp [phase] at executing
  | executing _ _ kill only unique => exact ⟨_, kill, only, unique⟩

/-- An adapter that executes has a worker to kill. -/
theorem kill_of_executing (h : Tended g) (executing : g.state.phase = .executing) :
    ∃ w, g.state.kill = some w := by
  obtain ⟨w, kill, -⟩ := h.of_executing executing
  exact ⟨w, kill⟩

/-- There is something to kill only while the adapter is ready or executes. -/
theorem kill_eq_none (h : Tended g) (ready : g.state.phase ≠ .ready)
    (executing : g.state.phase ≠ .executing) : g.state.worker = none ∧ g.state.kill = none := by
  cases h with
  | idle _ worker kill _ => exact ⟨worker, kill⟩
  | starting _ worker kill _ => exact ⟨worker, kill⟩
  | ready phase _ _ _ => exact absurd phase ready
  | executing phase _ _ _ _ => exact absurd phase executing

/-- A worker in the adapter is the one that a termination would kill. -/
theorem kill_of_worker (h : Tended g) (worker : g.state.worker = some w) :
    g.state.kill = some w := by
  cases h with
  | idle _ none _ _ => simp [none] at worker
  | starting _ none _ _ => simp [none] at worker
  | executing _ none _ _ _ => simp [none] at worker
  | ready _ some kill _ => rw [kill, ← some, worker]

/-- Fewer calls may work for the present generation. -/
theorem frame (h : Tended g) (phase : g'.state.phase = g.state.phase)
    (worker : g'.state.worker = g.state.worker) (kill : g'.state.kill = g.state.kill)
    (current : ∀ d, g'.Current d → g.Current d ∧ g'.duty d = g.duty d) : Tended g' := by
  cases h with
  | idle p v k free =>
    exact .idle (phase.trans p) (worker.trans v) (kill.trans k) fun d hd => free d (current d hd).1
  | starting p v k only =>
    refine .starting (phase.trans p) (worker.trans v) (kill.trans k) ?_
    intro d hd
    obtain ⟨was, same⟩ := current d hd
    rw [same]
    exact only d was
  | ready p v k free =>
    exact .ready (phase.trans p) (worker.trans v) (kill.trans k) fun d hd => free d (current d hd).1
  | executing p v k only unique =>
    refine .executing (phase.trans p) (worker.trans v) (kill.trans k) ?_ ?_
    · intro d hd
      obtain ⟨was, same⟩ := current d hd
      rw [same]
      exact only d was
    · intro d e hd he
      exact unique d e (current d hd).1 (current e he).1

/-- Any call may go. -/
theorem without (h : Tended g) (c : CallId) : Tended (g.without c) := by
  refine h.frame rfl rfl rfl ?_
  intro d hd
  obtain ⟨other, was⟩ := current_without.1 hd
  exact ⟨was, duty_without_of_ne _ other⟩

/-- How the last start ended does not matter. -/
theorem withLastStart (h : Tended g) (q : Option (Except Failure Unit)) :
    Tended { g with state := { g.state with lastStart := q } } :=
  h.frame rfl rfl rfl fun _ hd => ⟨hd, rfl⟩

/-! ## Moves -/

/-- A call gets in line. -/
theorem join (h : Tended g) : Tended { g.assign c .waits with line := g.line ++ [c] } := by
  refine h.frame rfl rfl rfl ?_
  intro d hd
  have hd : (g.assign c .waits).Current d := hd
  by_cases same : d = c
  · subst same
    exact absurd hd (not_current_of_waits (duty_assign_self ..))
  · have duty : (g.assign c .waits).duty d = g.duty d := duty_assign_of_ne _ _ same
    refine ⟨?_, duty⟩
    obtain ⟨t, ht, present⟩ := hd
    exact ⟨t, duty ▸ ht, present⟩

/-- A start begins: nobody else has worked for the present generation. -/
theorem begin (h : Tended g) (lined : Lined g) (waits : g.duty c = .waits)
    (first : g.line.head? = some c) (ready : g.state.phase ≠ .ready)
    (executing : g.state.phase ≠ .executing) :
    Tended { g.assign c (.starts g.state.ticket) with state := g.state.begin } := by
  obtain ⟨worker, kill⟩ := h.kill_eq_none ready executing
  have free (d : CallId) : ¬g.Current d := by
    cases h with
    | idle _ _ _ free => exact free d
    | ready phase _ _ _ => exact absurd phase ready
    | executing phase _ _ _ _ => exact absurd phase executing
    | starting _ _ _ only =>
      -- another start would have the turn of this call
      intro current
      obtain ⟨t, starts⟩ := only d current
      have same : d = c := Option.some.inj ((lined.first d t starts).symm.trans first)
      rw [same, waits] at starts
      cases starts
  refine .starting rfl worker kill ?_
  intro d hd
  have hd : (g.assign c (.starts g.state.ticket)).Current d := hd
  have same : d = c := by
    rw [current_assign rfl] at hd
    exact hd.resolve_right (free d)
  subst same
  exact ⟨g.state.ticket, duty_assign_self ..⟩

/-- A start comes to its end, with a worker or without. -/
theorem leave (h : Tended g) (lined : Lined g) (starts : g.duty c = .starts t)
    (q : Except Failure WorkerId) :
    Tended { g.without c with state := (g.state.leave language t q).2 } := by
  cases outdated : g.state.isOutdated t with
  | true =>
    rw [State.leave_of_outdated outdated]
    exact (h.without c).withLastStart _
  | false =>
    have present := State.isOutdated_eq_false_iff.1 outdated
    obtain ⟨-, worker, kill, only⟩ := h.of_starts lined starts present
    have free (d : CallId) : ¬(g.without c).Current d := by
      rw [current_without]
      exact fun hd => hd.1 (only d hd.2)
    cases q with
    | ok w =>
      rw [State.leave_of_ok outdated]
      exact .ready (w := w) rfl rfl rfl free
    | error e =>
      rw [State.leave_of_error outdated]
      exact .idle rfl worker kill free

/-- An execution takes the worker. -/
theorem checkOut (h : Tended g) (ready : g.state.phase = .ready)
    (hw : g.state.worker = some w) :
    Tended
      { g.assign c (.runs g.state.ticket w) with state := (g.state.checkOut language).2 } := by
  rw [State.checkOut_of_ready ready hw]
  have kill := h.kill_of_worker hw
  have free (d : CallId) : ¬g.Current d := by
    cases h with
    | idle phase _ _ _ => simp [phase] at ready
    | starting phase _ _ _ => simp [phase] at ready
    | executing phase _ _ _ _ => simp [phase] at ready
    | ready _ _ _ free => exact free d
  have only (d : CallId) (hd : (g.assign c (.runs g.state.ticket w)).Current d) : d = c := by
    rw [current_assign rfl] at hd
    exact hd.resolve_right (free d)
  refine .executing (w := w) rfl rfl kill ?_ ?_
  · intro d hd
    have same := only d hd
    subst same
    exact ⟨g.state.ticket, duty_assign_self ..⟩
  · intro d e hd he
    exact (only d hd).trans (only e he).symm

/-- Without an execution that the adapter has awaited, nobody works for the present generation. -/
theorem free_of_awaits (h : Tended g) (runs : g.duty c = .runs t w)
    (awaited : g.state.awaits t = true) : ∀ d, ¬(g.without c).Current d := by
  obtain ⟨present, -⟩ := State.awaits_eq_true_iff.1 awaited
  obtain ⟨-, -, -, only⟩ := h.of_runs runs present
  intro d
  rw [current_without]
  exact fun hd => hd.1 (only d hd.2)

/-- An execution brings its worker back. -/
theorem checkIn (h : Tended g) (runs : g.duty c = .runs t w) :
    Tended { g.without c with state := g.state.checkIn w t } := by
  cases awaited : g.state.awaits t with
  | false =>
    rw [State.checkIn_of_not_awaits awaited]
    exact h.without c
  | true =>
    rw [State.checkIn_of_awaits awaited]
    obtain ⟨present, -⟩ := State.awaits_eq_true_iff.1 awaited
    obtain ⟨-, -, kill, -⟩ := h.of_runs runs present
    exact .ready (w := w) rfl rfl kill (h.free_of_awaits runs awaited)

/-- An execution has lost its worker. -/
theorem discard (h : Tended g) (runs : g.duty c = .runs t w) :
    Tended { g.without c with state := (g.state.discard t).2 } := by
  cases awaited : g.state.awaits t with
  | false =>
    rw [State.discard_of_not_awaits awaited]
    exact h.without c
  | true =>
    rw [State.discard_of_awaits awaited]
    obtain ⟨present, -⟩ := State.awaits_eq_true_iff.1 awaited
    obtain ⟨-, worker, -, -⟩ := h.of_runs runs present
    exact .idle rfl worker rfl (h.free_of_awaits runs awaited)

/-- After a termination nobody works for the generation that begins. -/
theorem terminate (dated : Dated g) : Tended { g with state := g.state.terminate } := by
  refine .idle rfl rfl rfl ?_
  intro d current
  obtain ⟨t, ht, present⟩ := current
  -- tickets are not from the future
  have le := (dated.tickets d t ht).2
  have next : t.generation = g.state.generation + 1 := present
  omega

/-- Every move keeps the law. -/
theorem move (h : Tended g) (lawful : Lawful g) (m : Move language g g') : Tended g' := by
  cases m with
  | join idle => exact h.join
  | skip waits => exact h.without _
  | begin waits first ready executing => exact h.begin lawful.toLined waits first ready executing
  | leave starts => exact h.leave lawful.toLined starts _
  | checkOut _ ready worker => exact h.checkOut ready worker
  | bare ready worker =>
    -- an adapter that is ready without a worker does not come about
    obtain ⟨w, there, -⟩ := h.worker_of_ready ready
    rw [worker] at there
    cases there
  | checkIn runs => exact h.checkIn runs
  | discard runs => exact h.discard runs
  | terminate => exact terminate lawful.toDated

end Tended

/-! ## Starts and workers apart -/

/-- While there is something to kill, no call starts a worker, for whichever generation. -/
def Apart (g : Ledger) : Prop := ∀ w, g.state.kill = some w → g.Unstarted

namespace Apart

/-- A call goes, and nothing more is to be killed than before. -/
theorem without (h : Apart g) (c : CallId) {σ : State}
    (kill : ∀ w, σ.kill = some w → g.state.kill = some w) : Apart { g.without c with state := σ } :=
  fun w hw => (h w (kill w hw)).without c

/-- Every move keeps starts and workers apart. -/
theorem move (h : Apart g) (lined : Lined g) (tended : Tended g) (m : Move language g g') :
    Apart g' := by
  cases m with
  | @join c idle => exact fun w hw => (h w hw).assign (c := c) (by simp)
  | skip _ => exact h.without _ fun _ hw => hw
  | begin _ _ ready executing =>
    -- where a start begins there is nothing to kill
    intro w killed
    have none : g.state.kill = none := (tended.kill_eq_none ready executing).2
    have killed : g.state.kill = some w := killed
    rw [none] at killed
    cases killed
  | leave starts =>
    -- the start that ends was the only one
    exact fun _ _ => lined.unstarted_without starts
  | @checkOut c w _ ready worker =>
    rw [State.checkOut_of_ready ready worker]
    exact fun w hw => (h w hw).assign (c := c) (by simp)
  | bare ready worker =>
    rw [State.checkOut_of_bare ready worker]
    exact h
  | checkIn runs =>
    refine h.without _ fun v hv => ?_
    unfold State.checkIn at hv
    split at hv <;> exact hv
  | discard runs =>
    refine h.without _ fun v hv => ?_
    unfold State.discard at hv
    split at hv
    · cases hv
    · exact hv
  | terminate => exact fun w hw => nomatch hw

end Apart

end SnippetRunner.Adapter.Ledger

/-! ## Runs -/

namespace SnippetRunner.Adapter.System

variable {s s' : System} {allowed : Label → Prop} {l : Label} {r : Option Reply}

/-- A new adapter has neither worker nor calls. -/
theorem tended_new (language : String) (b : Budget) : (new language b).ledger.Tended := by
  refine .idle rfl rfl rfl ?_
  intro d current
  obtain ⟨t, ht, -⟩ := current
  cases ht

/-- Every step keeps both laws, also that a caller gives up a call. -/
theorem Step.tended (h : Step s l s' r) (lawful : s.ledger.Lawful) (tended : s.ledger.Tended)
    (apart : s.ledger.Apart) : s'.ledger.Tended ∧ s'.ledger.Apart := by
  rcases h.move with same | moved | ⟨n, -, gone⟩
  · rw [same]
    exact ⟨tended, apart⟩
  · exact ⟨tended.move lawful moved, apart.move lawful.toLined tended moved⟩
  · rw [gone]
    exact ⟨tended.without _, apart.without _ fun _ hw => hw⟩

/-- Both laws hold after every run of a new adapter. -/
theorem Runs.tended {language : String} {b : Budget} (run : Runs allowed (new language b) s) :
    s.ledger.Tended ∧ s.ledger.Apart := by
  have all : s.ledger.Lawful ∧ s.ledger.Tended ∧ s.ledger.Apart := by
    refine run.keeps (P := fun s => s.ledger.Lawful ∧ s.ledger.Tended ∧ s.ledger.Apart) ?_
      ⟨lawful_new language b, tended_new language b, fun w hw => nomatch hw⟩
    intro s l s' r _ hs step
    obtain ⟨lawful, tended, apart⟩ := hs
    exact ⟨step.lawful lawful, step.tended lawful tended apart⟩
  exact all.2

end SnippetRunner.Adapter.System
