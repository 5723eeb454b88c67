import SnippetRunner.Proofs.Adapter.Cancellation

/-!
# Present work has a running worker

A worker is killed by the call that has it, or by a termination, which overtakes all work. Nobody else
has the worker of a call, so whoever works for the present generation has a worker that runs, and so
has the adapter itself while it is ready. The one exception is an execution whose time was up, until
the adapter learns of it.
-/

namespace SnippetRunner.Adapter

/-- The call has killed its worker because its time was up. -/
def Call.isSpent : Call → Bool
  | .executed _ _ _ _ .outOfTime => true
  | _ => false

namespace System

variable {s s' : System} {c : CallId} {t : Ticket} {w : WorkerId} {k k' : Call} {l : Label}
  {r : Option Reply} {i : Option CallId}

/-- A holder has a worker for the present generation. -/
def Serves (s : System) (i : Option CallId) (w : WorkerId) : Prop :=
  ∃ k t, s.Holds i k w ∧ k.duty.ticket? = some t ∧ t.generation = s.state.generation ∧
    k.isSpent = false

/-- All of these run. -/
def Alive (s : System) : Prop := ∀ i w, s.Serves i w → w ∈ s.live

/-- Nobody shares a worker. -/
def Unshared (s : System) : Prop :=
  ∀ i j k k' w, s.Holds i k w → s.Holds j k' w → i = j

/-! ## Who serves after a change -/

namespace Serves

/-- What has to do neither with calls nor with the worker and the generation does not matter. -/
theorem congr (h : s'.Serves i w) (calls : ∀ d, s'.call? d = s.call? d)
    (worker : s'.state.worker = s.state.worker)
    (generation : s'.state.generation = s.state.generation) : s.Serves i w := by
  obtain ⟨k, t, ⟨there, has⟩, ticket, present, unspent⟩ := h
  cases i with
  | some d =>
    exact ⟨k, t, ⟨(calls d).symm.trans there, has⟩, ticket, present.trans generation, unspent⟩
  | none =>
    obtain ⟨v, slot, rfl⟩ := Option.map_eq_some_iff.1 there
    have same : v = w := Option.some.inj has
    subst same
    refine ⟨.started s.state.ticket (.ok v), s.state.ticket, ⟨?_, rfl⟩, rfl, rfl, rfl⟩
    unfold place?
    simp only
    rw [← worker, slot]
    rfl

/-- Where a call has taken a step, it serves with what it has, and the others as before. -/
theorem cases_setCall (h : (s.setCall c k').Serves i w) :
    (i = some c ∧ k'.worker? = some w ∧ k'.isSpent = false) ∨ (i ≠ some c ∧ s.Serves i w) := by
  obtain ⟨k, t, holds, ticket, present, unspent⟩ := h
  rcases holds.of_setCall with ⟨mine, same⟩ | ⟨other, was⟩
  · subst same
    exact .inl ⟨mine, holds.2, unspent⟩
  · exact .inr ⟨other, k, t, was, ticket, present, unspent⟩

/-- It does not serve where it has no worker any more. -/
theorem of_setCall (h : (s.setCall c k').Serves i w)
    (out : k'.worker? = none ∨ k'.isSpent = true) : i ≠ some c ∧ s.Serves i w := by
  rcases h.cases_setCall with ⟨-, has, unspent⟩ | others
  · rcases out with none | spent
    · rw [none] at has
      cases has
    · rw [spent] at unspent
      cases unspent
  · exact others

/-- Where a call has taken a step with its worker and its ticket, it has served if it serves. -/
theorem of_goesOn (h : (s.setCall c k').Serves i w) (stands : s.call? c = some k)
    (worker : k'.worker? = k.worker?) (ticket : k'.duty.ticket? = k.duty.ticket?)
    (unspent : k.isSpent = false) : s.Serves i w := by
  obtain ⟨q, t, holds, rest⟩ := h
  rcases holds.of_setCall with ⟨rfl, rfl⟩ | ⟨-, was⟩
  · obtain ⟨has, present⟩ := And.intro holds.2 rest
    exact ⟨k, t, ⟨stands, worker.symm.trans has⟩, ticket.symm.trans present.1, present.2.1, unspent⟩
  · exact ⟨q, t, was, rest⟩

/-- Where a call has gone, the others serve that did. -/
theorem of_endCall (h : (s.endCall c).Serves i w) : i ≠ some c ∧ s.Serves i w := by
  obtain ⟨k, t, ⟨there, has⟩, rest⟩ := h
  cases i with
  | none => exact ⟨nofun, k, t, ⟨there, has⟩, rest⟩
  | some d =>
    have stands : (s.endCall c).call? d = some k := there
    rw [call?_endCall] at stands
    split at stands
    · cases stands
    next other => exact ⟨by simpa using other, k, t, ⟨stands, has⟩, rest⟩

end Serves

/-! ## Steps -/

namespace Alive

/-- Everybody who serves has served before, and the same workers run. -/
theorem frame (h : Alive s) (kept : ∀ i w, s'.Serves i w → s.Serves i w)
    (live : ∀ w ∈ s.live, w ∈ s'.live) : Alive s' :=
  fun i w serves => live w (h i w (kept i w serves))

/-- What has to do neither with calls nor with workers and the generation keeps it so. -/
theorem pass (h : Alive s) (calls : ∀ d, s'.call? d = s.call? d)
    (worker : s'.state.worker = s.state.worker)
    (generation : s'.state.generation = s.state.generation) (live : s'.live = s.live) : Alive s' := by
  refine h.frame (fun i w serves => serves.congr calls worker generation) ?_
  intro w alive
  rw [live]
  exact alive

/-- A call goes on with its worker and its ticket, and only the desk of a worker changes besides. -/
theorem goesOn {b : Worker.Desk} (h : Alive s) (stands : s.call? c = some k)
    (worker : k'.worker? = k.worker?) (ticket : k'.duty.ticket? = k.duty.ticket?)
    (unspent : k.isSpent = false) : Alive ((s.setDesk w b).setCall c k') := by
  refine h.frame (fun i v serves => ?_) fun _ alive => alive
  have was := Serves.of_goesOn (s := s.setDesk w b) serves stands worker ticket unspent
  exact was.congr (fun _ => rfl) rfl rfl

/-- A call has nothing to do with its worker any more, which may be killed; nobody else has it. -/
theorem leave (h : Alive s) (unshared : s.Unshared) (stands : s.call? c = some k)
    (kept : ∀ i w, s'.Serves i w → i ≠ some c ∧ s.Serves i w)
    (live : ∀ w ∈ s.live, k.worker? ≠ some w → w ∈ s'.live) : Alive s' := by
  intro i w serves
  obtain ⟨other, was⟩ := kept i w serves
  apply live w (h i w was)
  intro has
  obtain ⟨q, t, holds, -⟩ := was
  exact other (unshared i (some c) q k w holds ⟨stands, has⟩)

/-- A call brings its worker into the adapter. -/
theorem give (h : Alive s) (serves : s.Serves (some c) w)
    (calls : ∀ d, s'.call? d = (s.endCall c).call? d) (worker : s'.state.worker = some w)
    (generation : s'.state.generation = s.state.generation) (live : s'.live = s.live) : Alive s' := by
  intro i v now
  rw [live]
  cases i with
  | none =>
    obtain ⟨k, t, ⟨there, has⟩, -⟩ := now
    have slot : s'.state.worker.map (fun w => Call.started s'.state.ticket (.ok w)) = some k := there
    rw [worker] at slot
    obtain rfl := Option.some.inj slot
    have same : w = v := Option.some.inj has
    subst same
    exact h (some c) w serves
  | some d =>
    obtain ⟨k, t, ⟨there, has⟩, ticket, present, unspent⟩ := now
    have was : (s.endCall c).Serves (some d) v :=
      ⟨k, t, ⟨(calls d).symm.trans there, has⟩, ticket, present.trans generation, unspent⟩
    exact h (some d) v was.of_endCall.2

/-- After a termination nobody serves. -/
theorem terminate (dated : s.ledger.Dated) : Alive s.terminate := by
  intro i w serves
  obtain ⟨k, t, ⟨there, has⟩, ticket, present, -⟩ := serves
  cases i with
  | none => cases there
  | some d =>
    have stands : s.call? d = some k := there
    have le : t.generation ≤ s.state.generation :=
      (dated.tickets d t (by rw [duty_of_stands stands, ticket])).2
    have next : t.generation = s.state.generation + 1 := present
    omega

/-- The adapter learns how a start ended. -/
theorem settleStart {q : Except Failure WorkerId} (h : Alive s) (unshared : s.Unshared)
    (stands : s.call? c = some (.started t q)) (settled : s.settleStart c t q = (s', r)) :
    Alive s' := by
  cases outdated : s.state.isOutdated t with
  | true =>
    rw [settleStart_of_outdated outdated] at settled
    cases settled
    refine h.leave unshared stands (fun i w serves => ?_) fun w alive other => ?_
    · have was := Serves.of_endCall (s := { s with state := _ }) serves
      exact ⟨was.1, was.2.congr (fun _ => rfl) rfl rfl⟩
    · exact mem_live_kill.2 ⟨alive, fun same => other same.symm⟩
  | false =>
    cases q with
    | error e =>
      rw [settleStart_of_error outdated] at settled
      cases settled
      refine h.frame (fun i w serves => ?_) fun _ alive => alive
      have was := Serves.of_endCall (s := { s with state := _ }) serves
      exact was.2.congr (fun _ => rfl) rfl rfl
    | ok w =>
      rw [settleStart_of_ok outdated] at settled
      cases settled
      have serves : s.Serves (some c) w :=
        ⟨_, t, ⟨stands, rfl⟩, rfl, State.isOutdated_eq_false_iff.1 outdated, rfl⟩
      exact h.give serves (fun _ => rfl) rfl rfl rfl

/-- The adapter learns how an execution ended. -/
theorem settleExecution {x : Errand} {e : Option Worker.Execution} {ending : Worker.Ending}
    (h : Alive s) (unshared : s.Unshared) (stands : s.call? c = some (.executed t w x e ending)) :
    Alive (s.settleExecution c t w ending) := by
  have spared {v : WorkerId} (alive : v ∈ s.live)
      (other : (Call.executed t w x e ending).worker? ≠ some v) : v ∈ (s.kill (some w)).live :=
    mem_live_kill.2 ⟨alive, fun same => other same.symm⟩
  cases keeps : ending.keepsWorker with
  | false =>
    rw [settleExecution_of_lost keeps]
    refine h.leave unshared stands (fun i v serves => ?_) fun v alive other => spared alive other
    have worker : (s.state.discard t).2.worker = s.state.worker := by
      unfold State.discard
      split <;> rfl
    have generation : (s.state.discard t).2.generation = s.state.generation := by
      unfold State.discard
      split <;> rfl
    have gone : (({ s with state := (s.state.discard t).2 } : System).endCall c).Serves i v :=
      serves.congr (fun _ => rfl) rfl rfl
    exact ⟨gone.of_endCall.1, gone.of_endCall.2.congr (fun _ => rfl) worker generation⟩
  | true =>
    cases awaited : s.state.awaits t with
    | false =>
      rw [settleExecution_of_unawaited keeps awaited]
      refine h.leave unshared stands (fun i v serves => ?_) fun v alive other => spared alive other
      exact Serves.of_endCall (serves.congr (fun _ => rfl) rfl rfl)
    | true =>
      rw [settleExecution_of_awaited keeps awaited]
      have unspent : (Call.executed t w x e ending).isSpent = false := by
        cases ending <;> first | rfl | cases keeps
      have serves : s.Serves (some c) w :=
        ⟨_, t, ⟨stands, rfl⟩, rfl, (State.awaits_eq_true_iff.1 awaited).1, unspent⟩
      exact h.give serves (fun _ => rfl) rfl rfl rfl

/-- A call gets the worker of the adapter. -/
theorem checkOut {x : Errand} (h : Alive s) (slot : s.state.worker = some w) :
    Alive (({ s with state := { s.state with phase := .executing, worker := none } } : System).setCall c
      (.executing s.state.ticket w x none)) := by
  have before : s.Serves none w := by
    refine ⟨.started s.state.ticket (.ok w), s.state.ticket, ⟨?_, rfl⟩, rfl, rfl, rfl⟩
    unfold place?
    simp only [slot]
    rfl
  intro i v serves
  rcases serves.cases_setCall with ⟨-, has, -⟩ | ⟨-, k, t, was, rest⟩
  · have same : w = v := Option.some.inj has
    subst same
    exact h none w before
  · cases i with
    | none => cases was.1
    | some d => exact h (some d) v ⟨k, t, was, rest⟩

/-- A start comes to a failing end, and its worker is killed. -/
theorem failStart {e : Failure} (h : Alive s) (unshared : s.Unshared) (stands : s.call? c = some k) :
    Alive (s.failStart c k t e) := by
  refine h.leave unshared stands (fun i w serves => ?_) fun w alive other => ?_
  · have others := Serves.of_setCall serves (.inl rfl)
    exact ⟨others.1, others.2.congr (fun _ => rfl) rfl rfl⟩
  · exact mem_live_kill.2 ⟨alive, fun same => other same.symm⟩

/-- An execution comes to another end than that its request is done. -/
theorem abandon {x : Errand} {e : Option Worker.Execution} {ending : Worker.Ending} (h : Alive s)
    (unshared : s.Unshared) (stands : s.call? c = some (.executing t w x e)) :
    Alive (s.abandon c t w x e ending) := by
  unfold System.abandon
  by_cases late : ending = .outOfTime
  · subst late
    refine h.leave unshared stands (fun i v serves => ?_) fun v alive other => ?_
    · have others := Serves.of_setCall serves (.inr rfl)
      exact ⟨others.1, others.2.congr (fun _ => rfl) rfl rfl⟩
    · exact mem_live_kill.2 ⟨alive, fun same => other same.symm⟩
  · rw [if_neg late, kill_none]
    exact h.frame (fun i v serves => serves.of_goesOn stands rfl rfl rfl) fun _ alive => alive

/-- Every step keeps it so. -/
theorem step (h : Alive s) (unshared : s.Unshared) (dated : s.ledger.Dated) (step : Step s l s' r) :
    Alive s' := by
  cases step with
  | prepare free asked =>
    rcases ask_cases asked with ⟨-, rfl⟩ | ⟨-, rfl⟩
    · exact h
    · exact h.frame (fun i w serves => (serves.of_setCall (.inl rfl)).2) fun _ alive => alive
  | replace free ordered asked =>
    rcases ask_cases asked with ⟨-, rfl⟩ | ⟨-, rfl⟩
    · exact h.pass (fun _ => rfl) rfl rfl rfl
    · refine h.frame (fun i w serves => ?_) fun _ alive => alive
      exact (serves.of_setCall (.inl rfl)).2.congr (fun _ => rfl) rfl rfl
  | @queue c o stands =>
    refine h.frame (fun i w serves => ?_) fun _ alive => alive
    have waits : (s.setCall c (.waiting o)).Serves i w := serves.congr (fun _ => rfl) rfl rfl
    exact (waits.of_setCall (.inl rfl)).2
  | enter stands first taken =>
    rcases takeTurn_cases taken with ⟨-, rfl⟩ | ⟨-, ⟨e, -, rfl⟩ | ⟨-, rfl⟩⟩
    · exact h.frame (fun i w serves => serves.of_endCall.2) fun _ alive => alive
    · exact h.frame (fun i w serves => serves.of_endCall.2) fun _ alive => alive
    · refine h.frame (fun i w serves => ?_) fun _ alive => alive
      exact (Serves.of_setCall serves (.inl rfl)).2.congr (fun _ => rfl) rfl rfl
  | plan ordered => exact h.pass (fun _ => rfl) rfl rfl rfl
  | @launch c t n stands begun awake =>
    intro i w serves
    apply List.mem_append.2
    rcases Serves.cases_setCall serves with ⟨-, has, -⟩ | ⟨-, was⟩
    · have same : s.desks.length = w := Option.some.inj has
      exact .inr (same ▸ List.mem_singleton_self _)
    · exact .inl (h i w (was.congr (fun _ => rfl) rfl rfl))
  | wake stands going wanted => exact h.pass (fun _ => rfl) rfl rfl rfl
  | rest stands going awake => exact h.pass (fun _ => rfl) rfl rfl rfl
  | listen stands awake taken =>
    obtain ⟨b, m, ms, u', -, -, ⟨-, rfl⟩ | ⟨v, -, rfl⟩⟩ := listen_cases taken
    · exact h.goesOn stands rfl rfl rfl
    · exact h.goesOn stands rfl rfl rfl
  | fail stands starting begun awake => exact h.failStart unshared stands
  | stop stands starting cancelled => exact h.failStart unshared stands
  | execute free taken =>
    rcases execute_cases taken with rfl | ⟨ready, ⟨w, slot, rfl⟩ | ⟨slot, rfl⟩⟩
    · exact h
    · rw [State.checkOut_of_ready ready slot]
      exact h.checkOut slot
    · rw [State.checkOut_of_bare ready slot]
      exact h.pass (fun _ => rfl) rfl rfl rfl
  | send stands awake sent =>
    obtain ⟨b, -, rfl⟩ := send_cases sent
    exact h.goesOn stands rfl rfl rfl
  | receive stands awake taken =>
    obtain ⟨b, m, ms, e', -, -, ⟨-, rfl⟩ | ⟨fault, -, rfl⟩⟩ := receive_cases taken
    · exact h.goesOn stands rfl rfl rfl
    · exact h.goesOn stands rfl rfl rfl
  | abandon stands may => exact h.abandon unshared stands
  | settleStart stands settled => exact h.settleStart unshared stands settled
  | settleExecution stands => exact h.settleExecution unshared stands
  | terminate => exact terminate dated
  | @drop n k stands pending =>
    refine h.leave unshared stands (fun i w serves => ?_) fun w alive other => ?_
    · have gone : (s.endCall (.caller n)).Serves i w := serves.congr (fun _ => rfl) rfl rfl
      exact gone.of_endCall
    · exact mem_live_kill.2 ⟨alive, fun same => other same.symm⟩
  | deliver known => exact h.pass (fun _ => rfl) rfl rfl rfl

end Alive

/-! ## Runs -/

/-- In a new adapter nobody works. -/
theorem alive_new (language : String) (b : Budget) : Alive (new language b) := by
  intro i w serves
  obtain ⟨k, t, ⟨there, -⟩, -⟩ := serves
  cases i <;> cases there

/-- What every reachable adapter says of who has which worker. -/
theorem Runs.unshared {allowed : Label → Prop} {language : String} {b : Budget}
    (run : Runs allowed (new language b) s) : Unshared s := by
  obtain ⟨log, recorded⟩ := run.exists_recorded
  exact recorded.kept.1.unique

/-- The desk of a worker that a call has. -/
theorem Runs.known {allowed : Label → Prop} {language : String} {b : Budget}
    (reached : Runs allowed (new language b) s)
    (stands : s.call? c = some k) (has : k.worker? = some w) : s.desks[w]? = some (s.desk w) := by
  obtain ⟨log, recorded⟩ := reached.exists_recorded
  obtain ⟨desk, known, -⟩ := recorded.kept.1.fits (some c) k w ⟨stands, has⟩
  rw [known, desk_of_known known]

/-- Work is to stop if and only if a termination has overtaken it. -/
theorem Runs.isCancelled_eq {allowed : Label → Prop} {language : String} {b : Budget}
    (reached : Runs allowed (new language b) s) (stands : s.call? c = some k)
    (ticket : k.duty.ticket? = some t) : s.state.isCancelled t = s.state.isOutdated t := by
  have known : (s.ledger.duty c).ticket? = some t := by
    rw [duty_of_stands stands]
    exact ticket
  exact reached.lawful.toDated.isCancelled_eq known

/-- Whatever the calls of an adapter do, also when callers give up theirs: whoever works for the present
generation has a running worker. -/
theorem Runs.alive {allowed : Label → Prop} {language : String} {b : Budget}
    (run : Runs allowed (new language b) s) : Alive s := by
  induction run with
  | refl => exact alive_new language b
  | next run _ taken ih => exact ih.step run.unshared run.lawful.toDated (.of_step taken)

end System

end SnippetRunner.Adapter
