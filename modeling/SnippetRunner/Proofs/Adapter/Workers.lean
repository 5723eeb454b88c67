import SnippetRunner.Proofs.Adapter.Tenure

/-!
# At most one worker

However the calls of an adapter take their steps, and also when callers give them up, at most one
worker runs that has not been killed, and starts come one after the other. The reason is that each
running worker is known in one of two places, which are never in use at the same time: it is the one
that a termination would kill, or a start has it. A worker that has lost its place has been killed.
-/

namespace SnippetRunner.Adapter.System

variable {s s' : System} {c d : CallId} {w : WorkerId} {k k' : Call} {l : Label} {r : Option Reply}

/-! ## Where a running worker is known -/

/-- A call starts a worker, and the adapter does not know the end of that yet. -/
def AtStart (s : System) (c : CallId) : Prop := ∃ k t, s.call? c = some k ∧ k.duty = .starts t

/-- A start has this worker. -/
def StartsOn (s : System) (c : CallId) (w : WorkerId) : Prop :=
  ∃ k t, s.call? c = some k ∧ k.duty = .starts t ∧ k.worker? = some w

/-- The worker is the one that a termination would kill, or a start has it. -/
def Knows (s : System) (w : WorkerId) : Prop :=
  s.state.kill = some w ∨ ∃ c, s.StartsOn c w

theorem atStart_iff : s.AtStart c ↔ ∃ t, s.ledger.duty c = .starts t := by
  constructor
  · intro start
    obtain ⟨k, t, hk, hd⟩ := start
    exact ⟨t, (duty_of_stands hk).trans hd⟩
  · intro start
    obtain ⟨t, hd⟩ := start
    obtain ⟨k, hk, same⟩ := stands_of_duty hd (by simp)
    exact ⟨k, t, hk, same⟩

theorem StartsOn.atStart (h : s.StartsOn c w) : s.AtStart c := by
  obtain ⟨k, t, hk, duty, -⟩ := h
  exact ⟨k, t, hk, duty⟩

/-- What a start says of the place where its call stands. -/
theorem StartsOn.of_stands (h : s.StartsOn c w) (stands : s.call? c = some k) :
    (∃ t, k.duty = .starts t) ∧ k.worker? = some w := by
  obtain ⟨q, t, hq, duty, has⟩ := h
  rw [stands] at hq
  cases hq
  exact ⟨⟨t, duty⟩, has⟩

/-- A start is where it was when another call takes a step, or takes one with its worker. -/
theorem StartsOn.setCall (h : s.StartsOn d w)
    (kept : d = c → ∃ t, k'.duty = .starts t ∧ k'.worker? = some w) :
    (s.setCall c k').StartsOn d w := by
  by_cases same : d = c
  · obtain ⟨t, duty, has⟩ := kept same
    subst same
    exact ⟨k', t, call?_setCall_self .., duty, has⟩
  · obtain ⟨k, t, hk, duty, has⟩ := h
    exact ⟨k, t, (call?_setCall_of_ne _ _ same).trans hk, duty, has⟩

/-- A start is where it was when another call goes. -/
theorem StartsOn.endCall (h : s.StartsOn d w) (other : d ≠ c) : (s.endCall c).StartsOn d w := by
  obtain ⟨k, t, hk, duty, has⟩ := h
  exact ⟨k, t, by rw [call?_endCall, if_neg other, hk], duty, has⟩

/-- What is known stays known as long as what would be killed does and the starts do. -/
theorem Knows.of_kill_eq (h : s.Knows w) (kill : s'.state.kill = s.state.kill)
    (starts : ∀ d, s.StartsOn d w → s'.StartsOn d w) : s'.Knows w := by
  rcases h with killed | ⟨d, started⟩
  · exact .inl (kill.trans killed)
  · exact .inr ⟨d, starts d started⟩

theorem mem_live_kill {v : Option WorkerId} : w ∈ (s.kill v).live ↔ w ∈ s.live ∧ some w ≠ v := by
  simp [kill]

/-! ## The law -/

/-- Every running worker is known, and each stands on its own. -/
structure Guarded (s : System) : Prop where
  known : ∀ w ∈ s.live, s.Knows w
  nodup : s.live.Nodup
  launched : ∀ w ∈ s.live, w < s.desks.length

namespace Guarded

/-- Fewer workers may run, as long as those that do stay known. -/
theorem frame (h : Guarded s) (live : s'.live.Sublist s.live)
    (desks : s'.desks.length = s.desks.length) (known : ∀ w ∈ s'.live, s.Knows w → s'.Knows w) :
    Guarded s' where
  known w hw := known w hw (h.known w (live.subset hw))
  nodup := live.nodup h.nodup
  launched w hw := by
    rw [desks]
    exact h.launched w (live.subset hw)

/-- What does not concern workers does not matter. -/
theorem of_eq (h : Guarded s) (live : s'.live = s.live) (desks : s'.desks.length = s.desks.length)
    (kill : s'.state.kill = s.state.kill) (calls : ∀ d, s'.call? d = s.call? d) : Guarded s' := by
  refine h.frame (live ▸ List.Sublist.refl _) desks fun w _ known => ?_
  refine known.of_kill_eq kill fun d started => ?_
  obtain ⟨k, t, hk, duty, has⟩ := started
  exact ⟨k, t, (calls d).trans hk, duty, has⟩

/-- Another state of the adapter, with the same to be killed. -/
theorem withState (h : Guarded s) (σ : State) (kill : σ.kill = s.state.kill) :
    Guarded { s with state := σ } :=
  h.of_eq rfl rfl kill fun _ => rfl

/-- The end of the line to a worker is in another state. -/
theorem setDesk (h : Guarded s) (w : WorkerId) (b : Worker.Desk) : Guarded (s.setDesk w b) :=
  h.of_eq rfl List.length_set rfl fun _ => rfl

/-- A worker is killed. -/
theorem kill (h : Guarded s) (v : Option WorkerId) : Guarded (s.kill v) :=
  h.frame List.filter_sublist rfl fun _ _ known => known

/-- A call takes a step with the worker of its start, or without having one. -/
theorem setCall (h : Guarded s)
    (kept : ∀ k t w, s.call? c = some k → k.duty = .starts t → k.worker? = some w → w ∈ s.live →
      ∃ u, k'.duty = .starts u ∧ k'.worker? = some w) : Guarded (s.setCall c k') := by
  refine h.frame (List.Sublist.refl _) rfl fun w hw known => ?_
  refine known.of_kill_eq rfl fun d started => started.setCall fun same => ?_
  subst same
  obtain ⟨k, t, hk, duty, has⟩ := started
  exact kept k t w hk duty has hw

/-- A call takes a step that starts nothing. -/
theorem setCall_other (h : Guarded s) (k' : Call)
    (other : ∀ k, s.call? c = some k → ∀ t, k.duty ≠ .starts t) : Guarded (s.setCall c k') :=
  h.setCall fun k t _ hk duty _ _ => absurd duty (other k hk t)

/-- A call goes that starts nothing, or the worker of which does not run. -/
theorem endCall (h : Guarded s) (lost : ∀ w, s.StartsOn c w → w ∉ s.live) :
    Guarded (s.endCall c) := by
  refine h.frame (List.Sublist.refl _) rfl fun w hw known => ?_
  refine known.of_kill_eq rfl fun d started => started.endCall ?_
  intro same
  subst same
  exact lost w started hw

/-! ## Steps -/

/-- The worker of a start begins to run. -/
theorem launch {t : Ticket} {n : Nat} (h : Guarded s) (stands : s.call? c = some (.planning t n)) :
    Guarded (s.launch c t) where
  known w hw := by
    rcases List.mem_append.1 hw with old | new
    · refine (h.known w old).of_kill_eq rfl fun d started => started.setCall fun same => ?_
      -- before that the start had no worker
      subst same
      obtain ⟨-, has⟩ := started.of_stands stands
      cases has
    · rw [List.mem_singleton.1 new]
      exact .inr ⟨c, _, t, call?_setCall_self .., rfl, rfl⟩
  nodup := by
    have new : s.desks.length ∉ s.live := fun hw => Nat.lt_irrefl _ (h.launched _ hw)
    exact List.nodup_append.2 ⟨h.nodup, by simp, by
      intro v hv u hu same
      rw [List.mem_singleton.1 hu] at same
      exact new (same ▸ hv)⟩
  launched w hw := by
    have len : (s.launch c t).desks.length = s.desks.length + 1 := List.length_append
    rw [len]
    rcases List.mem_append.1 hw with old | new
    · exact Nat.lt_succ_of_lt (h.launched w old)
    · rw [List.mem_singleton.1 new]
      exact Nat.lt_succ_self _

/-- A start that goes on takes a message. -/
theorem listen {t : Ticket} {u : Worker.Startup} (h : Guarded s)
    (stands : s.call? c = some (.readying t w u)) (taken : s.listen c t w u = some s') :
    Guarded s' := by
  obtain ⟨b, m, ms, u', -, -, ⟨-, rfl⟩ | ⟨v, -, rfl⟩⟩ := listen_cases taken
  all_goals
    refine (h.setDesk w { b with messages := ms }).setCall fun k x v hk _ has _ => ?_
    have hk : s.call? c = some k := hk
    rw [stands] at hk
    cases hk
    exact ⟨t, rfl, has⟩

/-- A start comes to a failing end, and its worker is killed. -/
theorem failStart {t : Ticket} {e : Failure} (h : Guarded s) (stands : s.call? c = some k) :
    Guarded (s.failStart c k t e) := by
  refine (h.kill k.worker?).setCall fun q u v hq _ has hv => ?_
  have hq : s.call? c = some q := hq
  rw [stands] at hq
  cases hq
  exact absurd has.symm (mem_live_kill.1 hv).2

/-- The adapter learns how a start ended. -/
theorem settleStart {t : Ticket} {q : Except Failure WorkerId} (h : Guarded s)
    (lawful : s.ledger.Lawful) (tended : s.ledger.Tended)
    (stands : s.call? c = some (.started t q)) (settled : s.settleStart c t q = (s', r)) :
    Guarded s' := by
  cases outdated : s.state.isOutdated t with
  | true =>
    rw [settleStart_of_outdated outdated] at settled
    cases settled
    have killed := (h.withState { s.state with
      lastStart := some (.error (State.overtaken s.language)) } rfl).kill q.toOption
    refine killed.endCall fun w started hw => ?_
    have has := (StartsOn.of_stands (s := s) started stands).2
    exact (mem_live_kill.1 hw).2 has.symm
  | false =>
    cases q with
    | error e =>
      rw [settleStart_of_error outdated] at settled
      cases settled
      refine (h.withState { s.state with
        phase := .uninitialized, lastStart := some (.error e) } rfl).endCall fun w started _ => ?_
      have has := (StartsOn.of_stands (s := s) started stands).2
      cases has
    | ok v =>
      rw [settleStart_of_ok outdated] at settled
      cases settled
      -- before that there was nothing to kill, so every running worker was known by a start
      have starts : s.ledger.duty c = .starts t := duty_of_stands stands
      obtain ⟨-, -, kill, -⟩ :=
        tended.of_starts lawful.toLined starts (State.isOutdated_eq_false_iff.1 outdated)
      refine h.frame (List.Sublist.refl _) rfl fun w _ known => .inl ?_
      rcases known with killed | ⟨d, started⟩
      · have none : s.state.kill = none := kill
        rw [none] at killed
        cases killed
      · obtain ⟨u, starts'⟩ := atStart_iff.1 started.atStart
        have same : d = c := lawful.toLined.unique starts' starts
        subst same
        exact (started.of_stands stands).2

/-- The adapter learns how an execution ended. -/
theorem settleExecution {t : Ticket} {x : Errand} {e : Option Worker.Execution}
    {ending : Worker.Ending} (h : Guarded s) (tended : s.ledger.Tended)
    (stands : s.call? c = some (.executed t w x e ending)) :
    Guarded (s.settleExecution c t w ending) := by
  have nothing (v : WorkerId) (started : s.StartsOn c v) : False := by
    obtain ⟨⟨u, duty⟩, -⟩ := started.of_stands stands
    cases duty
  cases keeps : ending.keepsWorker with
  | true =>
    obtain ⟨v, hs⟩ := settleExecution_of_keeps (s := s) (c := c) (t := t) (w := w) keeps
    rw [hs]
    have kill : (s.state.checkIn w t).kill = s.state.kill := by
      unfold State.checkIn
      split <;> rfl
    exact ((h.withState _ kill).endCall fun u started _ => nothing u started).kill v
  | false =>
    rw [settleExecution_of_lost keeps]
    refine h.frame List.filter_sublist rfl fun v hv known => ?_
    have other : some v ≠ some w := (mem_live_kill.1 hv).2
    have elsewhere (d : CallId) (started : s.StartsOn d v) : (s.endCall c).StartsOn d v := by
      refine started.endCall fun same => ?_
      subst same
      exact nothing v started
    cases awaited : s.state.awaits t with
    | false =>
      rw [State.discard_of_not_awaits awaited]
      exact known.of_kill_eq rfl elsewhere
    | true =>
      -- what a termination would have killed is the worker that has been lost
      obtain ⟨present, -⟩ := State.awaits_eq_true_iff.1 awaited
      have runs : s.ledger.duty c = .runs t w := duty_of_stands stands
      obtain ⟨-, -, kill, -⟩ := tended.of_runs runs present
      rcases known with killed | ⟨d, started⟩
      · exact absurd (killed.symm.trans kill) other
      · exact .inr ⟨d, elsewhere d started⟩

/-- All work is stopped, and what is to be killed is. -/
theorem terminate (h : Guarded s) : Guarded s.terminate := by
  refine h.frame (List.filter_sublist.trans List.filter_sublist) rfl fun w hw known => ?_
  rcases known with killed | started
  · have alive : some w ≠ s.state.kill := (mem_live_kill.1 (mem_live_kill.1 hw).1).2
    exact absurd killed.symm alive
  · exact .inr started

/-- Every step keeps the law. -/
theorem step (h : Guarded s) (lawful : s.ledger.Lawful) (tended : s.ledger.Tended)
    (step : Step s l s' r) : Guarded s' := by
  cases step with
  | prepare free asked =>
    rcases ask_cases asked with ⟨-, rfl⟩ | ⟨-, rfl⟩
    · exact h
    · exact h.setCall_other _ fun k hk => by simp [free] at hk
  | @replace n s' r free ordered asked =>
    have same : Guarded ({ s with replacements := s.replacements - 1 } : System) :=
      h.of_eq rfl rfl rfl fun _ => rfl
    rcases ask_cases asked with ⟨-, rfl⟩ | ⟨-, rfl⟩
    · exact same
    · refine same.setCall_other _ fun k hk => ?_
      have hk : s.call? (.background n) = some k := hk
      simp [free] at hk
  | @queue c o stands =>
    have waits : Guarded (s.setCall c (.waiting o)) := h.setCall_other _ fun k hk => by
      rw [stands] at hk
      cases hk
      simp [Call.duty]
    exact waits.of_eq rfl rfl rfl fun _ => rfl
  | @enter c o s' r stands first taken =>
    have nothing (k : Call) (hk : s.call? c = some k) (t : Ticket) : k.duty ≠ .starts t := by
      rw [stands] at hk
      cases hk
      simp [Call.duty]
    have gone : Guarded (s.endCall c) := h.endCall fun w started _ => by
      obtain ⟨⟨t, duty⟩, -⟩ := started.of_stands stands
      exact nothing _ stands t duty
    rcases takeTurn_cases taken with ⟨-, rfl⟩ | ⟨-, ⟨e, -, rfl⟩ | ⟨-, rfl⟩⟩
    · exact gone
    · exact gone
    · have same : Guarded ({ s with
          state := s.state.begin, orders := s.orders ++ [s.state.attempts + 1] } : System) :=
        h.of_eq rfl rfl rfl fun _ => rfl
      exact same.setCall_other _ nothing
  | plan ordered => exact h.of_eq rfl rfl rfl fun _ => rfl
  | wake _ _ _ => exact h.of_eq rfl rfl rfl fun _ => rfl
  | rest _ _ _ => exact h.of_eq rfl rfl rfl fun _ => rfl
  | launch stands begun awake => exact h.launch stands
  | listen stands awake taken => exact h.listen stands taken
  | fail stands starting begun awake => exact h.failStart stands
  | stop stands starting cancelled => exact h.failStart stands
  | @execute n code b s' r free taken =>
    rcases execute_cases taken with rfl | ⟨ready, ⟨w, worker, rfl⟩ | ⟨worker, rfl⟩⟩
    · exact h
    · rw [State.checkOut_of_ready ready worker]
      refine (h.withState { s.state with phase := .executing, worker := none } rfl).setCall_other _
        fun k hk => ?_
      have hk : s.call? (.caller n) = some k := hk
      simp [free] at hk
    · rw [State.checkOut_of_bare ready worker]
      exact h.withState _ rfl
  | @send c t w x s' stands awake sent =>
    obtain ⟨b, -, rfl⟩ := send_cases sent
    refine (h.setDesk w _).setCall_other _ fun k hk => ?_
    have hk : s.call? c = some k := hk
    rw [stands] at hk
    cases hk
    simp [Call.duty]
  | @receive c t w x e s' stands awake taken =>
    have nothing (k : Call) (hk : s.call? c = some k) (t : Ticket) : k.duty ≠ .starts t := by
      rw [stands] at hk
      cases hk
      simp [Call.duty]
    obtain ⟨b, m, ms, e', -, -, ⟨-, rfl⟩ | ⟨fault, -, rfl⟩⟩ := receive_cases taken
    · exact (h.setDesk w _).setCall_other _ nothing
    · exact (h.setDesk w _).setCall_other _ nothing
  | abandon stands may =>
    refine (h.kill _).setCall_other _ fun k hk => ?_
    rw [call?_kill, stands] at hk
    cases hk
    simp [Call.duty]
  | settleStart stands settled => exact h.settleStart lawful tended stands settled
  | settleExecution stands => exact h.settleExecution tended stands
  | terminate => exact h.terminate
  | @drop n k stands pending =>
    refine (h.kill k.worker?).endCall fun w started hw => ?_
    have has := (StartsOn.of_stands (s := s) started stands).2
    exact (mem_live_kill.1 hw).2 has.symm
  | deliver known => exact h.setDesk _ _

end Guarded

/-! ## The starts of workers -/

/-- A call comes to start a worker only when it has the turn, and the adapter is neither ready nor
executes. -/
theorem begins_of_move {language : String} {g g' : Ledger} {t : Ticket}
    (m : Ledger.Move language g g') (starts : g'.duty c = .starts t)
    (before : ∀ u, g.duty c ≠ .starts u) :
    g.line.head? = some c ∧ g.duty c = .waits ∧ g.state.phase ≠ .ready ∧
      g.state.phase ≠ .executing ∧ g'.state = g.state.begin := by
  -- whatever else is assigned to a call or taken from it is no start
  have assigned {e : CallId} {q : Duty} (hq : ∀ u, q ≠ .starts u)
      (hc : (g.assign e q).duty c = .starts t) : False := by
    by_cases same : c = e
    · subst same
      rw [Ledger.duty_assign_self] at hc
      exact hq t hc
    · rw [Ledger.duty_assign_of_ne _ _ same] at hc
      exact before t hc
  cases m with
  | join _ => exact (assigned (by simp) starts).elim
  | skip _ => exact (assigned (by simp) starts).elim
  | leave _ => exact (assigned (by simp) starts).elim
  | checkOut _ _ _ => exact (assigned (by simp) starts).elim
  | bare _ _ => exact absurd starts (before t)
  | checkIn _ => exact (assigned (by simp) starts).elim
  | discard _ => exact (assigned (by simp) starts).elim
  | terminate => exact absurd starts (before t)
  | @begin e waits first ready executing =>
    by_cases same : c = e
    · subst same
      exact ⟨first, waits, ready, executing, rfl⟩
    · have old : g.duty c = .starts t :=
        (Ledger.duty_assign_of_ne g (.starts g.state.ticket) same).symm.trans starts
      exact absurd old (before t)

/-- A step after which a call starts a worker that has not done so before. -/
theorem Step.begins (h : Step s l s' r) (start : s'.AtStart c) (before : ¬s.AtStart c) :
    s.line.head? = some c ∧ s.ledger.duty c = .waits ∧ s.state.phase ≠ .ready ∧
      s.state.phase ≠ .executing ∧ s'.state = s.state.begin := by
  obtain ⟨t, starts⟩ := atStart_iff.1 start
  have unstarted (u : Ticket) : s.ledger.duty c ≠ .starts u := fun hu =>
    before (atStart_iff.2 ⟨u, hu⟩)
  rcases h.move with same | moved | ⟨n, -, gone⟩
  · rw [same] at starts
    exact absurd starts (unstarted t)
  · exact begins_of_move moved starts unstarted
  · rw [gone] at starts
    by_cases hc : c = .caller n
    · subst hc
      rw [Ledger.duty_without_self] at starts
      cases starts
    · rw [Ledger.duty_without_of_ne _ hc] at starts
      exact absurd starts (unstarted t)

/-! ## What holds between any two steps -/

/-- Workers and starts come one at a time. -/
structure OneWorker (s : System) : Prop where
  /-- At most one worker runs that has not been killed. -/
  live : s.live.length ≤ 1
  /-- At most one call starts a worker, for whichever generation. -/
  unique : ∀ c d, s.AtStart c → s.AtStart d → c = d
  /-- While one does, the adapter is neither ready nor executes. -/
  apart : ∀ c, s.AtStart c → s.state.phase ≠ .ready ∧ s.state.phase ≠ .executing
  /-- A start begins only where no other one goes on and no worker runs. -/
  begins : ∀ l s' r c, s.step l = some (s', r) → s'.AtStart c → ¬s.AtStart c →
    (∀ d, ¬s.AtStart d) ∧ s.state.phase ≠ .ready ∧ s.state.phase ≠ .executing ∧ s.live = []

/-- Two running workers are the same one. -/
theorem Guarded.unique (h : Guarded s) (lined : s.ledger.Lined) (apart : s.ledger.Apart)
    {v w : WorkerId} (hv : v ∈ s.live) (hw : w ∈ s.live) : v = w := by
  -- what is to be killed and the worker of a start are never there together
  have apart {u : WorkerId} {c : CallId} {u' : WorkerId} (killed : s.state.kill = some u)
      (started : s.StartsOn c u') : False := by
    obtain ⟨t, starts⟩ := atStart_iff.1 started.atStart
    exact apart u killed c t starts
  rcases h.known v hv with killed | ⟨c, started⟩
  · rcases h.known w hw with killed' | ⟨d, started'⟩
    · exact Option.some.inj (killed.symm.trans killed')
    · exact (apart killed started').elim
  · rcases h.known w hw with killed' | ⟨d, started'⟩
    · exact (apart killed' started).elim
    · obtain ⟨t, starts⟩ := atStart_iff.1 started.atStart
      obtain ⟨u, starts'⟩ := atStart_iff.1 started'.atStart
      have same : c = d := lined.unique starts starts'
      subst same
      obtain ⟨k, _, hk, _, has⟩ := started
      exact Option.some.inj (has.symm.trans (started'.of_stands hk).2)

/-- Where the adapter is neither ready nor executes and nobody starts a worker, none runs. -/
theorem Guarded.live_eq_nil (h : Guarded s) (tended : s.ledger.Tended)
    (ready : s.state.phase ≠ .ready) (executing : s.state.phase ≠ .executing)
    (idle : ∀ d, ¬s.AtStart d) : s.live = [] := by
  rw [List.eq_nil_iff_forall_not_mem]
  intro w hw
  rcases h.known w hw with killed | ⟨d, started⟩
  · have none : s.state.kill = none := (tended.kill_eq_none ready executing).2
    rw [none] at killed
    cases killed
  · exact idle d started.atStart

/-- The workers of a new adapter are all known: there is none. -/
theorem guarded_new (language : String) (b : Budget) : Guarded (new language b) where
  known _ hw := by cases hw
  nodup := List.nodup_nil
  launched _ hw := by cases hw

/-- After every run of a new adapter each running worker is known. -/
theorem Runs.guarded {allowed : Label → Prop} {language : String} {b : Budget}
    (run : Runs allowed (new language b) s) : Guarded s := by
  induction run with
  | refl => exact guarded_new language b
  | next run _ taken ih => exact ih.step run.lawful run.tended.1 (.of_step taken)

/-- Whatever the calls of an adapter do and in which order their steps are taken, also when callers
give up their calls: at most one worker runs that has not been killed, and starts come one after the
other, while the adapter is neither ready nor executes. -/
theorem oneWorker_of_runs {language : String} {b : Budget}
    (run : Runs (fun _ => True) (new language b) s) : OneWorker s := by
  have lawful := run.lawful
  obtain ⟨tended, apart⟩ := run.tended
  have guarded := run.guarded
  have alone (c d : CallId) (hc : s.AtStart c) (hd : s.AtStart d) : c = d := by
    obtain ⟨t, starts⟩ := atStart_iff.1 hc
    obtain ⟨u, starts'⟩ := atStart_iff.1 hd
    exact lawful.toLined.unique starts starts'
  refine ⟨?_, alone, ?_, ?_⟩
  · match hl : s.live with
    | [] => simp
    | [_] => simp
    | v :: w :: rest =>
      have same : v = w := guarded.unique lawful.toLined apart (by simp [hl]) (by simp [hl])
      have nodup := guarded.nodup
      simp [hl, same] at nodup
  · intro c start
    obtain ⟨t, starts⟩ := atStart_iff.1 start
    have spared (w : WorkerId) : s.state.kill ≠ some w := fun kill => apart w kill c t starts
    constructor
    · intro ready
      obtain ⟨w, -, kill⟩ := tended.worker_of_ready ready
      exact spared w kill
    · intro executing
      obtain ⟨w, kill⟩ := tended.kill_of_executing executing
      exact spared w kill
  · intro l s' r c step start before
    obtain ⟨first, waits, ready, executing, -⟩ := (Step.of_step step).begins start before
    have idle (d : CallId) : ¬s.AtStart d := by
      -- another start would have the turn
      intro other
      obtain ⟨t, starts⟩ := atStart_iff.1 other
      have same : d = c := Option.some.inj ((lawful.first d t starts).symm.trans first)
      rw [same, waits] at starts
      cases starts
    exact ⟨idle, ready, executing, guarded.live_eq_nil tended ready executing idle⟩

/-- A termination overtakes a start whose worker runs, and another caller asks for a worker. -/
def overtaken : List Label :=
  [.prepare 0, .queue (.caller 0), .enter (.caller 0), .plan 1, .wake (.caller 0),
    .launch (.caller 0), .terminate, .prepare 1, .queue (.caller 1)]

/-- The worker of the overtaken start is the only one, and while it runs nobody else starts one. -/
theorem oneWorker_of_runs_overtaken : ∃ s, (new "lua" .standard).follow overtaken = some s ∧
    s.live = [0] ∧ s.state.phase = .uninitialized ∧ s.AtStart (.caller 0) ∧ OneWorker s := by
  refine ⟨_, rfl, rfl, rfl, ⟨_, _, rfl, rfl⟩, ?_⟩
  have run := @Runs.of_follow (fun _ => True) (new "lua" .standard) _ overtaken rfl
    fun _ _ => trivial
  exact oneWorker_of_runs run

end SnippetRunner.Adapter.System
