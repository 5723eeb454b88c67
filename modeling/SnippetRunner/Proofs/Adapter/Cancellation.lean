import SnippetRunner.Proofs.Adapter.Attribution
import SnippetRunner.Proofs.Adapter.Workers

/-!
# A termination reaches everything

Work takes its generation and its token in one section, and a termination changes both in one section,
so that the token of a generation is cancelled exactly when the generation is over. Work that a
termination has overtaken can do little more. A start never succeeds, whatever it still does. An
execution returns a report, and it is bound to return that it was terminated if and only if it rests:
one that is awake has asked already whether it is to stop, and may come to another end before it asks
again. What rests takes at most two steps until it returns, whatever the others do in between.
-/

namespace SnippetRunner.Adapter

/-! ## Overtaken work -/

namespace Call

/-- What a call returns that a termination has overtaken where it stands: a start does not succeed any
more, an execution is terminated, and what an execution has come to already is not changed. -/
def lateReply (language : String) : Call → Option Reply
  | .planning _ _ | .readying _ _ _ | .started _ _ =>
    some (.initialized (.error (State.overtaken language)))
  | .executing _ _ x e => some (.executed (.ok (.failed (x.transcript e).output .terminated)))
  | .executed _ _ x e ending =>
    some (.executed (.ok (ending.report x.budget (x.transcript e).output)))
  | _ => none

/-- How many steps it takes for that at most once the call rests. -/
def stepsLeft : Call → Nat
  | .planning _ _ | .readying _ _ _ | .executing _ _ _ _ => 2
  | .started _ _ | .executed _ _ _ _ _ => 1
  | _ => 0

end Call

/-- A termination has overtaken the work with this ticket, and it is to stop. -/
structure State.Overtaken (s : State) (t : Ticket) : Prop where
  before : t.generation < s.generation
  cancelled : s.isCancelled t = true

namespace State.Overtaken

variable {s σ : State} {t : Ticket}

theorem isOutdated (h : s.Overtaken t) : s.isOutdated t = true :=
  isOutdated_eq_true_iff.2 (Nat.ne_of_lt h.before)

/-- Only the clock tells what has been overtaken. -/
theorem of_clock (h : s.Overtaken t) (same : σ.clock = s.clock) : σ.Overtaken t := by
  simp only [clock, Prod.mk.injEq] at same
  obtain ⟨generation, -, cancelled⟩ := same
  refine ⟨generation ▸ h.before, ?_⟩
  rw [isCancelled_eq_true_iff, cancelled]
  exact isCancelled_eq_true_iff.1 h.cancelled

/-- A further termination does not take that back. -/
theorem terminate (h : s.Overtaken t) : s.terminate.Overtaken t where
  before := Nat.lt_succ_of_lt h.before
  cancelled := isCancelled_eq_true_iff.2
    (List.mem_cons_of_mem _ (isCancelled_eq_true_iff.1 h.cancelled))

end State.Overtaken

namespace Ledger

variable {g g' : Ledger} {c : CallId} {t : Ticket} {language : String}

/-- A move leaves the clock as it is, unless it is a termination. -/
theorem Move.clock (m : Move language g g') :
    g'.state.clock = g.state.clock ∨ g'.state = g.state.terminate := by
  cases m with
  | join _ => exact .inl rfl
  | skip _ => exact .inl rfl
  | begin _ _ _ _ => exact .inl State.clock_begin
  | leave _ => exact .inl State.clock_leave
  | checkOut _ _ _ => exact .inl State.clock_checkOut
  | bare _ _ => exact .inl State.clock_checkOut
  | checkIn _ => exact .inl State.clock_checkIn
  | discard _ => exact .inl State.clock_discard
  | terminate => exact .inr rfl

/-- A termination overtakes everything that goes on. -/
theorem Dated.overtaken_terminate (h : Dated g) (ticket : (g.duty c).ticket? = some t) :
    g.state.terminate.Overtaken t := by
  obtain ⟨same, le⟩ := h.tickets c t ticket
  have before : t.generation < g.state.terminate.generation := Nat.lt_succ_of_le le
  refine ⟨before, ?_⟩
  rw [h.terminate.isCancelled_eq (c := c) ticket]
  exact State.isOutdated_eq_true_iff.2 (Nat.ne_of_lt before)

end Ledger

namespace System

variable {s s' : System} {c d : CallId} {t : Ticket} {w : WorkerId} {k : Call} {l : Label}
  {r : Option Reply} {q : Reply} {n : Nat}

/-- Work that has been overtaken remains so. -/
theorem Step.overtaken (h : Step s l s' r) (late : s.state.Overtaken t) : s'.state.Overtaken t := by
  rcases h.move with same | moved | ⟨n, -, gone⟩
  · have state : s'.state = s.state := congrArg Ledger.state same
    rwa [state]
  · rcases moved.clock with clock | terminated
    · exact late.of_clock clock
    · have state : s'.state = s.state.terminate := terminated
      rw [state]
      exact late.terminate
  · have state : s'.state = s.state := congrArg Ledger.state gone
    rwa [state]

@[simp] theorem call?_settleExecution_self (s : System) (c : CallId) (t : Ticket) (w : WorkerId)
    (ending : Worker.Ending) : (s.settleExecution c t w ending).call? c = none := by
  cases keeps : ending.keepsWorker with
  | true =>
    obtain ⟨v, hs⟩ := settleExecution_of_keeps (s := s) (c := c) (t := t) (w := w) keeps
    rw [hs]
    simp
  | false =>
    rw [settleExecution_of_lost keeps]
    exact (call?_endCall { s with state := (s.state.discard t).2 } c c).trans (if_pos rfl)

/-! ## Calls that are bound to return -/

/-- A step that a call takes by itself; that its caller gives it up is none. -/
def Label.IsOwn (c : CallId) (l : Label) : Prop := l.by? = some c ∧ ∀ n, l ≠ .drop n

/-- The call returns this reply after at most so many steps of its own: whatever the others have
done, there is a step that it can take, and whichever it takes brings it nearer or is the last
one. -/
def Returns (c : CallId) (q : Reply) : Nat → System → Prop
  | 0, _ => False
  | n + 1, s => ∀ s', Runs (fun l => l.by? ≠ some c) s s' →
      (∃ l s'' r, l.IsOwn c ∧ s'.step l = some (s'', r)) ∧
      ∀ l s'' r, l.IsOwn c → s'.step l = some (s'', r) →
        (r = some q ∧ s''.call? c = none) ∨ (r = none ∧ Returns c q n s'')

/-- The adapter learns how the work of the call has ended, or the caller gives the call up. -/
def Label.IsLast (c : CallId) (l : Label) : Prop := l = .settle c ∨ ∃ n, c = .caller n ∧ l = .drop n

/-- The call has not returned before its last step, and there is always a step that it can take; what
it returns in the end is one of these replies. -/
structure Answers (c : CallId) (Q : Reply → Prop) (s : System) : Prop where
  goesOn : ∀ s', Runs (fun l => ¬l.IsLast c) s s' → ∃ l s'' r, l.IsOwn c ∧ s'.step l = some (s'', r)
  own : ∀ s' l s'' r, Runs (fun l => ¬l.IsLast c) s s' → l.IsOwn c → s'.step l = some (s'', r) →
    (l ≠ .settle c ∧ r = none) ∨ (l = .settle c ∧ (∃ q, r = some q ∧ Q q) ∧ s''.call? c = none)

/-- A call rests where it stands: if its work goes on, it asks whether it is to stop before it takes
another step. -/
def Rests (s : System) (c : CallId) (k : Call) : Prop := k.going?.isSome = true → c ∉ s.awake

/-- A call that does not go on has nothing to ask. -/
theorem rests_of_not_going (ended : k.going? = none) : s.Rests c k := by
  unfold Rests
  rw [ended]
  simp

/-- A call stands here with this ticket, and a termination has overtaken it. -/
structure Late (language : String) (c : CallId) (t : Ticket) (k : Call) (s : System) : Prop where
  stands : s.call? c = some k
  ticket : k.duty.ticket? = some t
  overtaken : s.state.Overtaken t
  language : s.language = language

namespace Late

variable {language : String} {k' : Call}

/-- The others have taken a step. -/
theorem other (h : Late language c t k s) (step : Step s l s' r) (other : l.by? ≠ some c) :
    Late language c t k s' :=
  ⟨(step.call?_eq other).trans h.stands, h.ticket, step.overtaken h.overtaken,
    step.language.trans h.language⟩

/-- What the others do does not matter. -/
theorem runs (h : Late language c t k s) (run : Runs (fun l => l.by? ≠ some c) s s') :
    Late language c t k s' ∧ (s.Rests c k → s'.Rests c k) := by
  refine run.keeps (P := fun s' => Late language c t k s' ∧ (s.Rests c k → s'.Rests c k)) ?_
    ⟨h, id⟩
  intro s₁ l s₂ r other kept step
  refine ⟨kept.1.other step other, fun rests going awake => ?_⟩
  exact kept.2 rests going ((step.mem_awake_iff other).1 awake)

/-- The call has taken a step with its ticket. -/
theorem next (h : Late language c t k s) (step : Step s l s' r) (stands : s'.call? c = some k')
    (ticket : k'.duty.ticket? = some t) : Late language c t k' s' :=
  ⟨stands, ticket, step.overtaken h.overtaken, step.language.trans h.language⟩

/-- A call that has been overtaken can take a step: it stops, or its end is settled. -/
theorem exists_step (h : Late language c t k s) : ∃ l s' r, l.IsOwn c ∧ Step s l s' r := by
  obtain ⟨stands, ticket, late, -⟩ := h
  cases k with
  | asking _ => cases ticket
  | waiting _ => cases ticket
  | planning u i =>
    cases ticket
    exact ⟨.stop c, _, _, ⟨rfl, by simp⟩, .stop stands rfl late.cancelled⟩
  | readying u w b =>
    cases ticket
    exact ⟨.stop c, _, _, ⟨rfl, by simp⟩, .stop stands rfl late.cancelled⟩
  | executing u w x e =>
    cases ticket
    exact ⟨.abandon c .terminated, _, _, ⟨rfl, by simp⟩, .abandon stands late.cancelled⟩
  | started u f => exact ⟨.settle c, _, _, ⟨rfl, by simp⟩, .settleStart stands rfl⟩
  | executed u w x e ending => exact ⟨.settle c, _, _, ⟨rfl, by simp⟩, .settleExecution stands⟩

/-- A call that is awake keeps its duty with a step of its work. One that rests takes no such step. -/
theorem goesOn_of_awake (h : Late language c t k s) (step : Step s l s' none)
    (stands : s'.call? c = some k') (duty : k'.duty = k.duty) (going : k.going?.isSome = true)
    (awake : c ∈ s.awake) :
    ∃ k', Late language c t k' s' ∧ k'.duty = k.duty ∧
      (s.Rests c k → s'.Rests c k' ∧ k'.lateReply language = k.lateReply language ∧
        k'.stepsLeft < k.stepsLeft) :=
  ⟨k', h.next step stands ((congrArg Duty.ticket? duty).trans h.ticket), duty,
    fun rests => absurd awake (rests going)⟩

/-- What becomes of an overtaken call with one step of its own: it returns what was decided, or it goes
on with the duty that it has; and if it rests, it is nearer to what it is to return. -/
theorem own_cases (h : Late language c t k s) (step : Step s l s' r) (own : l.IsOwn c) :
    (l = .settle c ∧ r = k.lateReply language ∧ s'.call? c = none) ∨
    (l ≠ .settle c ∧ r = none ∧ ∃ k', Late language c t k' s' ∧ k'.duty = k.duty ∧
      (s.Rests c k → s'.Rests c k' ∧ k'.lateReply language = k.lateReply language ∧
        k'.stepsLeft < k.stepsLeft)) := by
  obtain ⟨mine, kept⟩ := own
  have idle {d : CallId} {k' : Call} (mine : some d = some c) (stands : s.call? d = some k')
      (none : k'.duty.ticket? = none) : False := by
    rw [(same_of_stands h.stands mine stands).1, h.ticket] at none
    cases none
  have took := step
  cases step with
  | prepare free _ => exact absurd free (not_free_of_stands h.stands mine)
  | replace free _ _ => exact absurd free (not_free_of_stands h.stands mine)
  | execute free _ => exact absurd free (not_free_of_stands h.stands mine)
  | queue stands => exact (idle mine stands rfl).elim
  | enter stands _ _ => exact (idle mine stands rfl).elim
  | plan _ => cases mine
  | terminate => cases mine
  | deliver _ => cases mine
  | drop _ _ => exact absurd rfl (kept _)
  | wake stands going wanted =>
    -- whoever asks whether it is to stop finds that it is
    obtain ⟨rfl, rfl⟩ := same_of_stands h.stands mine stands
    have ticket := (ticket?_duty_of_going going).symm.trans h.ticket
    cases ticket
    rw [h.overtaken.cancelled] at wanted
    cases wanted
  | rest stands going awake =>
    obtain ⟨rfl, rfl⟩ := same_of_stands h.stands mine stands
    exact .inr ⟨by simp, rfl, h.goesOn_of_awake took stands rfl going awake⟩
  | launch stands _ awake =>
    obtain ⟨rfl, rfl⟩ := same_of_stands h.stands mine stands
    exact .inr ⟨by simp, rfl, h.goesOn_of_awake took (call?_setCall_self ..) rfl rfl awake⟩
  | listen stands awake taken =>
    obtain ⟨rfl, rfl⟩ := same_of_stands h.stands mine stands
    obtain ⟨b, m, ms, u, -, -, ⟨-, rfl⟩ | ⟨v, -, rfl⟩⟩ := listen_cases taken
    · exact .inr ⟨by simp, rfl, h.goesOn_of_awake took (call?_setCall_self ..) rfl rfl awake⟩
    · exact .inr ⟨by simp, rfl, h.goesOn_of_awake took (call?_setCall_self ..) rfl rfl awake⟩
  | send stands awake sent =>
    obtain ⟨rfl, rfl⟩ := same_of_stands h.stands mine stands
    obtain ⟨b, -, rfl⟩ := send_cases sent
    exact .inr ⟨by simp, rfl, h.goesOn_of_awake took (call?_setCall_self ..) rfl rfl awake⟩
  | receive stands awake taken =>
    obtain ⟨rfl, rfl⟩ := same_of_stands h.stands mine stands
    obtain ⟨b, m, ms, e, -, -, ⟨-, rfl⟩ | ⟨fault, -, rfl⟩⟩ := receive_cases taken
    · exact .inr ⟨by simp, rfl, h.goesOn_of_awake took (call?_setCall_self ..) rfl rfl awake⟩
    · exact .inr ⟨by simp, rfl, h.goesOn_of_awake took (call?_setCall_self ..) rfl rfl awake⟩
  | @fail d e k u stands starting _ awake =>
    obtain ⟨rfl, rfl⟩ := same_of_stands h.stands mine stands
    have going : k.going?.isSome = true := by cases k <;> simp_all [Call.starting?, Call.going?]
    exact .inr ⟨by simp, rfl, h.goesOn_of_awake took (call?_setCall_self ..)
      (duty_of_starting starting).symm going awake⟩
  | @stop d k u stands starting _ =>
    obtain ⟨rfl, rfl⟩ := same_of_stands h.stands mine stands
    have duty := duty_of_starting starting
    have ticket := (congrArg Duty.ticket? duty).symm.trans h.ticket
    refine .inr ⟨by simp, rfl, _, h.next took (call?_setCall_self ..) ticket, duty.symm, fun _ => ?_⟩
    refine ⟨rests_of_not_going rfl, ?_⟩
    cases k with
    | planning _ _ => exact ⟨rfl, by simp [Call.stepsLeft]⟩
    | readying _ _ _ => exact ⟨rfl, by simp [Call.stepsLeft]⟩
    | _ => cases starting
  | @abandon d u w x e ending stands may =>
    obtain ⟨rfl, rfl⟩ := same_of_stands h.stands mine stands
    refine .inr ⟨by simp, rfl, _, h.next took (call?_setCall_self ..) h.ticket, rfl, fun rests => ?_⟩
    by_cases terminated : ending = .terminated
    · subst terminated
      exact ⟨rests_of_not_going rfl, rfl, by simp [Call.stepsLeft]⟩
    · exact absurd (awake_of_mayEnd may terminated) (rests rfl)
  | @settleStart d u f s' r stands settled =>
    obtain ⟨rfl, rfl⟩ := same_of_stands h.stands mine stands
    have ticket : some u = some t := h.ticket
    cases ticket
    rw [settleStart_of_outdated h.overtaken.isOutdated, h.language] at settled
    cases settled
    exact .inl ⟨rfl, rfl, by simp⟩
  | settleExecution stands =>
    obtain ⟨rfl, rfl⟩ := same_of_stands h.stands mine stands
    exact .inl ⟨rfl, rfl, call?_settleExecution_self ..⟩

/-- A call that rests returns what it is to return after no more steps than it has left. -/
theorem returns (h : Late language c t k s) (rests : s.Rests c k)
    (reply : k.lateReply language = some q) (le : k.stepsLeft ≤ n) : Returns c q n s := by
  induction n generalizing k s with
  | zero =>
    -- a call with a ticket has a step left
    have ticket := h.ticket
    cases k <;> simp_all [Call.stepsLeft, Call.duty, Duty.ticket?]
  | succ n ih =>
    intro s' run
    obtain ⟨h', still⟩ := h.runs run
    constructor
    · obtain ⟨l, s'', r, own, step⟩ := h'.exists_step
      exact ⟨l, s'', r, own, step.step_eq⟩
    · intro l s'' r own step
      rcases h'.own_cases (.of_step step) own with ⟨-, last, gone⟩ | ⟨-, none, k', late, -, nearer⟩
      · exact .inl ⟨last.trans reply, gone⟩
      · obtain ⟨rests', same, less⟩ := nearer (still rests)
        exact .inr ⟨none, ih late rests' (same.trans reply) (by omega)⟩

/-- As long as it has not taken its last step, an overtaken call keeps its duty. -/
theorem runs_of_not_last (h : Late language c t k s) (run : Runs (fun l => ¬l.IsLast c) s s') :
    ∃ k', Late language c t k' s' ∧ k'.duty = k.duty := by
  refine run.keeps (P := fun s' => ∃ k', Late language c t k' s' ∧ k'.duty = k.duty) ?_ ⟨k, h, rfl⟩
  intro s₁ l s₂ r goesOn kept step
  obtain ⟨k₁, late, duty⟩ := kept
  by_cases mine : l.by? = some c
  · have own : l.IsOwn c := by
      refine ⟨mine, ?_⟩
      rintro n rfl
      exact goesOn (.inr ⟨n, (Option.some.inj mine).symm, rfl⟩)
    rcases late.own_cases step own with ⟨last, -⟩ | ⟨-, -, k₂, late', same, -⟩
    · exact absurd (.inl last) goesOn
    · exact ⟨k₂, late', same.trans duty⟩
  · exact ⟨k₁, late.other step mine, duty⟩

/-- Whatever it still does, it returns a reply that a call with its duty is to return. -/
theorem answers {Q : Reply → Prop} (h : Late language c t k s)
    (ok : ∀ k' : Call, k'.duty = k.duty → ∃ q, k'.lateReply language = some q ∧ Q q) : Answers c Q s where
  goesOn s' run := by
    obtain ⟨k', late, -⟩ := h.runs_of_not_last run
    obtain ⟨l, s'', r, own, step⟩ := late.exists_step
    exact ⟨l, s'', r, own, step.step_eq⟩
  own s' l s'' r run own step := by
    obtain ⟨k', late, duty⟩ := h.runs_of_not_last run
    rcases late.own_cases (.of_step step) own with ⟨last, reply, gone⟩ | ⟨goesOn, none, -⟩
    · obtain ⟨q, is, fits⟩ := ok k' duty
      exact .inr ⟨last, ⟨q, reply.trans is, fits⟩, gone⟩
    · exact .inl ⟨goesOn, none⟩

end Late

/-- An execution that is awake may lose its worker, and it returns that. -/
theorem not_returns_of_awake {x : Errand} {e : Option Worker.Execution} {output : Output}
    (stands : s.call? c = some (.executing t w x e)) (awake : c ∈ s.awake) (n : Nat) :
    ¬Returns c (.executed (.ok (.failed output .terminated))) (n + 2) s := by
  intro returns
  have may : s.mayEnd c t (.lost "") = true := mayEnd_of_awake awake rfl (by simp)
  have abandoned := Step.abandon stands may
  rcases (returns s .refl).2 _ _ _ ⟨rfl, by simp⟩ abandoned.step_eq with ⟨early, -⟩ | ⟨-, next⟩
  · cases early
  · have ended : (s.abandon c t w x e (.lost "")).call? c = some (.executed t w x e (.lost "")) :=
      call?_setCall_self ..
    have settled := Step.settleExecution ended
    rcases (next _ .refl).2 _ _ _ ⟨rfl, by simp⟩ settled.step_eq with ⟨reply, -⟩ | ⟨none, -⟩
    · simp only [Option.some.injEq, Reply.executed.injEq, Except.ok.injEq] at reply
      have kinds := congrArg (fun report : Report => report.fault.bind Fault.kind) reply
      have differ : (Fault.workerExited "").kind ≠ Fault.terminated.kind := by decide
      exact absurd kinds differ
    · cases none

/-! ## What a termination reaches -/

/-- How the work comes to its end that a termination has overtaken. -/
structure Stops (s : System) : Prop where
  /-- Starts do not succeed any more, also those whose workers are ready, and whatever they still do; if
  they rest, they return after at most two steps. -/
  starting : ∀ c k t, s.call? c = some k → k.duty = .starts t → t.generation ≠ s.state.generation →
    Answers c (· = .initialized (.error
      (.initialization s.language "terminated during initialization"))) s ∧
    (s.Rests c k → Returns c (.initialized (.error
      (.initialization s.language "terminated during initialization"))) 2 s)
  /-- Executions that go on return a report. They are bound to return that they were terminated if they
  rest, and only then. -/
  executing : ∀ c t w x e, s.call? c = some (.executing t w x e) →
    t.generation ≠ s.state.generation →
      Answers c (fun q => ∃ report, q = .executed (.ok report)) s ∧
      ∀ n, Returns c (.executed (.ok (.failed (x.transcript e).output .terminated))) (n + 2) s ↔
        c ∉ s.awake
  /-- Those that have come to an end return what was decided. -/
  executed : ∀ c t w x e ending, s.call? c = some (.executed t w x e ending) →
    t.generation ≠ s.state.generation →
      Returns c (.executed (.ok (ending.report x.budget (x.transcript e).output))) 1 s

/-- How a termination that comes now deals with the work that goes on. -/
structure Reached (s : System) : Prop where
  /-- Work of the present generation has the token that the termination cancels. -/
  present : ∀ c k t, s.call? c = some k → k.duty.ticket? = some t →
    t.generation = s.state.generation → t.token = s.state.token ∧ s.state.isCancelled t = false
  /-- Other work is older, and its token has been cancelled. -/
  older : ∀ c k t, s.call? c = some k → k.duty.ticket? = some t →
    t.generation ≠ s.state.generation →
      t.generation < s.state.generation ∧ s.state.isCancelled t = true
  phase : s.terminate.state.phase = .uninitialized
  worker : s.terminate.state.worker = none
  kill : s.terminate.state.kill = none
  /-- The worker in the adapter is killed, unless it has been. -/
  slot : ∀ w, s.state.worker = some w → w ∉ s.terminate.live
  /-- So is the worker of every execution. -/
  checkedOut : ∀ c k t w, s.call? c = some k → k.duty = .runs t w → w ∉ s.terminate.live
  /-- All work that goes on stands where it stood, awake or at rest, and has been overtaken. -/
  overtakes : ∀ c k t, s.call? c = some k → k.duty.ticket? = some t →
    s.terminate.call? c = some k ∧ (s.terminate.Rests c k ↔ s.Rests c k) ∧
      t.generation < s.terminate.state.generation ∧ s.terminate.state.isCancelled t = true
  /-- Such work comes to its end as work does that has been overtaken, then and whatever happens
  afterwards. -/
  stops : ∀ s', Runs (fun _ => True) s.terminate s' → Stops s'

/-- Every run has a record. -/
theorem Runs.exists_recorded {allowed : Label → Prop} (run : Runs allowed s s') :
    ∃ log, Recorded s s' log := by
  induction run with
  | refl => exact ⟨[], .start⟩
  | next _ _ step ih =>
    obtain ⟨log, recorded⟩ := ih
    exact ⟨_, recorded.next step⟩

/-- A worker that an execution has is not running after a termination: what it would be known for is
to be killed, or to belong to a start. -/
theorem not_live_terminate {k : Call} (guarded : Guarded s)
    (apart : ∀ h h' k k' w, s.Holds h k w → s.Holds h' k' w → h = h')
    (stands : s.call? c = some k) (runs : k.duty = .runs t w) : w ∉ s.terminate.live := by
  intro live
  have alive := (mem_live_kill.1 live).1
  obtain ⟨running, spared⟩ := mem_live_kill.1 alive
  rcases guarded.known w running with killed | ⟨d, q, u, hq, starts, has⟩
  · exact spared killed.symm
  · have worker : k.worker? = some w := by cases k <;> simp_all [Call.duty, Call.worker?]
    have same : some c = some d := apart _ _ k q w ⟨stands, worker⟩ ⟨hq, has⟩
    cases same
    rw [stands] at hq
    cases hq
    rw [runs] at starts
    cases starts

/-- Work of an earlier generation has been overtaken. -/
theorem Late.of_dated {k : Call} (dated : s.ledger.Dated) (stands : s.call? c = some k)
    (ticket : k.duty.ticket? = some t) (older : t.generation ≠ s.state.generation) :
    Late s.language c t k s := by
  have hd : (s.ledger.duty c).ticket? = some t := by rw [duty_of_stands stands, ticket]
  refine ⟨stands, ticket, ⟨Nat.lt_of_le_of_ne (dated.tickets c t hd).2 older, ?_⟩, rfl⟩
  exact (dated.isCancelled_eq hd).trans (State.isOutdated_eq_true_iff.2 older)

/-- What a start is to return that has been overtaken. -/
theorem lateReply_of_starts {k : Call} {language : String} (starts : k.duty = .starts t) :
    k.lateReply language = some (.initialized (.error (State.overtaken language))) := by
  cases k <;> first | rfl | cases starts

/-- What an execution is to return is a report. -/
theorem lateReply_of_runs {k : Call} {language : String} (runs : k.duty = .runs t w) :
    ∃ report, k.lateReply language = some (.executed (.ok report)) := by
  cases k <;> first | exact ⟨_, rfl⟩ | cases runs

/-- Where the law of the tickets holds, overtaken work comes to its end. -/
theorem stops_of_dated (dated : s.ledger.Dated) : Stops s where
  starting c k t stands starts older := by
    have late := Late.of_dated dated stands (congrArg Duty.ticket? starts) older
    refine ⟨late.answers fun k' same => ?_, fun rests => ?_⟩
    · exact ⟨_, lateReply_of_starts (same.trans starts), rfl⟩
    · refine late.returns rests (lateReply_of_starts starts) ?_
      cases k <;> simp [Call.stepsLeft]
  executing c t w x e stands older := by
    have late := Late.of_dated dated stands rfl older
    refine ⟨late.answers fun k' same => ?_, fun n => ⟨fun returns awake => ?_, fun rests => ?_⟩⟩
    · obtain ⟨report, is⟩ := lateReply_of_runs same
      exact ⟨_, is, report, rfl⟩
    · exact not_returns_of_awake stands awake n returns
    · exact late.returns (fun _ => rests) rfl (Nat.le_add_left 2 n)
  executed c t w x e ending stands older :=
    (Late.of_dated dated stands rfl older).returns (rests_of_not_going rfl) rfl (Nat.le_refl 1)

/-- Whatever the calls of an adapter have done, also when callers have given up theirs: a termination
reaches all work that goes on, and leaves nothing of it in the adapter. Starts fail; executions return,
and those that rest return that they were terminated. -/
theorem reached_of_runs {language : String} {b : Budget}
    (run : Runs (fun _ => True) (new language b) s) : Reached s := by
  have lawful := run.lawful
  have dated := lawful.toDated
  have guarded := run.guarded
  obtain ⟨log, recorded⟩ := run.exists_recorded
  have apart := recorded.kept.1.unique
  have duty {c : CallId} {k : Call} {t : Ticket} (stands : s.call? c = some k)
      (ticket : k.duty.ticket? = some t) : (s.ledger.duty c).ticket? = some t := by
    rw [duty_of_stands stands, ticket]
  refine ⟨?_, ?_, rfl, rfl, rfl, ?_, ?_, ?_, ?_⟩
  · intro c k t stands ticket same
    have hd := duty stands ticket
    have token : t.token = s.state.token := by
      rw [(dated.tickets c t hd).1, same]
      exact dated.token.symm
    exact ⟨token, (dated.isCancelled_eq hd).trans (State.isOutdated_eq_false_iff.2 same)⟩
  · intro c k t stands ticket other
    have late := Late.of_dated dated stands ticket other
    exact ⟨late.overtaken.before, late.overtaken.cancelled⟩
  · intro w worker live
    exact (mem_live_kill.1 live).2 worker.symm
  · intro c k t w stands runs
    exact not_live_terminate guarded apart stands runs
  · intro c k t stands ticket
    have overtaken := dated.overtaken_terminate (duty stands ticket)
    exact ⟨stands, Iff.rfl, overtaken.before, overtaken.cancelled⟩
  · intro s' later
    have reached := (run.next trivial Step.terminate.step_eq).trans later
    exact stops_of_dated reached.lawful.toDated

/-- An execution has found that it is not to stop when a termination overtakes it, and the worker of a
later start is ready. -/
def rivalling : List Label :=
  [.prepare 0, .queue (.caller 0), .enter (.caller 0), .plan 1, .wake (.caller 0),
    .launch (.caller 0), .deliver 0 (.event (.ready "5.4")), .listen (.caller 0),
    .settle (.caller 0), .execute 1 "f()" none, .wake (.caller 1), .terminate,
    .prepare 2, .queue (.caller 2), .enter (.caller 2), .plan 2, .wake (.caller 2),
    .launch (.caller 2), .deliver 1 (.event (.ready "5.4")), .listen (.caller 2)]

/-- The execution cannot write to the worker that has been killed. -/
def failingToWrite : List Label :=
  [.abandon (.caller 1) (.lost "cannot write to worker: Broken pipe (os error 32)")]

/-- A further termination reaches both, and yet the execution may return that its worker is lost. Had it
rested by then, it would be bound to return that it was terminated. -/
theorem reached_of_runs_rivalling :
    (∃ s t w x e u v, (new "lua" .standard).follow rivalling = some s ∧
      s.call? (.caller 1) = some (.executing t w x e) ∧ CallId.caller 1 ∈ s.awake ∧
      s.call? (.caller 2) = some (.started u (.ok v)) ∧ Reached s ∧
      ∃ s₁ s₂ output, s.terminate.follow failingToWrite = some s₁ ∧
        s₁.step (.settle (.caller 1)) = some (s₂, some (.executed (.ok (.failed output
          (.workerExited "cannot write to worker: Broken pipe (os error 32)")))))) ∧
    ∃ s t w x e, (new "lua" .standard).follow (rivalling ++ [.rest (.caller 1)]) = some s ∧
      s.call? (.caller 1) = some (.executing t w x e) ∧ CallId.caller 1 ∉ s.awake ∧
      Returns (.caller 1) (.executed (.ok (.failed (x.transcript e).output .terminated))) 2
        s.terminate := by
  constructor
  · refine ⟨_, _, _, _, _, _, _, rfl, rfl, by decide, rfl, ?_, _, _, _, rfl, rfl⟩
    have run := @Runs.of_follow (fun _ => True) (new "lua" .standard) _ rivalling rfl
      fun _ _ => trivial
    exact reached_of_runs run
  · refine ⟨_, _, _, _, _, rfl, rfl, by decide, ?_⟩
    have run := @Runs.of_follow (fun _ => True) (new "lua" .standard) _
      (rivalling ++ [.rest (.caller 1)]) rfl fun _ _ => trivial
    have stops := (reached_of_runs run).stops _ .refl
    exact ((stops.executing (.caller 1) _ _ _ _ rfl (by decide)).2 0).2 (by decide)

end System

end SnippetRunner.Adapter
