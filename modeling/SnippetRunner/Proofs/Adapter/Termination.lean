import Mathlib.Data.Set.Finite.Basic
import SnippetRunner.Proofs.Adapter.Ledger

/-!
# What may still begin after a termination

A termination stops the work that has begun, and an adapter stays without a worker after it unless
something has been left that begins a start later: a replacement or a launch plan that was ordered
and has not begun, or a caller on its way to the turn whom no failure will stop. That is the exact
condition. It is shown in one direction by an invariant, and in the other one by a run to a start
for each thing that may have been left.
-/

namespace SnippetRunner.Adapter

/-- The number of starts that a call has seen that has not had its turn. -/
def Call.observed? : Call → Option Nat
  | .asking o | .waiting o => some o
  | _ => none

namespace System

variable {drops : Bool} {s s' : System} {c d : CallId} {l : Label} {r : Option Reply}

/-! ## The law and its condition -/

/-- What may happen while nobody asks for a worker; callers may give up their calls where `drops`
says so. -/
def Unasked (drops : Bool) : Label → Prop
  | .prepare _ => False
  | .drop _ => drops = true
  | _ => True

/-- Whatever happens until somebody asks for a worker, no start begins, and the adapter has no
worker and refuses to execute anything. -/
def StaysDown (drops : Bool) (s : System) : Prop :=
  ∀ s', Runs (Unasked drops) s s' →
    s'.starts = s.starts ∧ s'.state.phase = .uninitialized ∧
    ∀ n code b, s'.call? (.caller n) = none → (b.getD s'.defaults).validate = .ok () →
      s'.step (.execute n code b) =
        some (s', some (.executed (.error (.notInitialized s'.language))))

/-- A call is on its way to the turn, and has seen this number of starts. -/
def Asks (s : System) (c : CallId) (o : Nat) : Prop :=
  ∃ k, s.call? c = some k ∧ k.observed? = some o

/-- A call may be given up where it stands. -/
def mayDrop (drops : Bool) (c : CallId) (k : Call) : Bool :=
  match c with
  | .caller _ => drops && k.isPending
  | .background _ => false

/-- A start is under way, and will come to its end. -/
def Bound (drops : Bool) (s : System) (c : CallId) : Prop :=
  ∃ k t, s.call? c = some k ∧ k.duty = .starts t ∧ mayDrop drops c k = false

/-- The last start has failed, or will have failed before the next call has its turn. -/
def Spoiled (drops : Bool) (s : System) : Prop :=
  (∃ e, s.state.lastStart = some (.error e)) ∨ ∃ c, s.Bound drops c

/-- Nothing has been left that begins a start later: no order, and no call that will not share the
failure of the last start. -/
structure IsQuiet (drops : Bool) (s : System) : Prop where
  replacements : s.replacements = 0
  orders : s.orders = []
  asks : ∀ c o, s.Asks c o → o ≠ s.state.attempts ∧ s.Spoiled drops

/-! ## Adapters at a halt -/

/-- The adapter has no worker, and a termination has overtaken all work that goes on. -/
structure Halted (s : System) : Prop where
  phase : s.state.phase = .uninitialized
  outdated : ∀ c k t, s.call? c = some k → k.duty.ticket? = some t →
    t.generation ≠ s.state.generation

/-- A termination brings an adapter to a halt. -/
theorem halted_terminate (dated : s.ledger.Dated) : Halted s.terminate where
  phase := rfl
  outdated c k t hk ht := by
    have hd : (s.ledger.duty c).ticket? = some t := by
      rw [duty_of_stands (s := s) hk]
      exact ht
    have le : t.generation ≤ s.state.generation := (dated.tickets c t hd).2
    show t.generation ≠ s.state.generation + 1
    omega

namespace Halted

/-- Every ticket has been overtaken. -/
theorem isOutdated (h : Halted s) {k : Call} {t : Ticket} (stands : s.call? c = some k)
    (ticket : k.duty.ticket? = some t) : s.state.isOutdated t = true :=
  State.isOutdated_eq_true_iff.2 (h.outdated c k t stands ticket)

/-- Everything that goes on is to stop. -/
theorem isCancelled (h : Halted s) (dated : s.ledger.Dated) {k : Call} {t : Ticket}
    (stands : s.call? c = some k) (ticket : k.duty.ticket? = some t) :
    s.state.isCancelled t = true := by
  have hd : (s.ledger.duty c).ticket? = some t := by
    rw [duty_of_stands stands]
    exact ticket
  exact (dated.isCancelled_eq hd).trans (h.isOutdated stands ticket)

/-- No execution is awaited. -/
theorem not_awaits (h : Halted s) (t : Ticket) : s.state.awaits t = false := by
  rw [← Bool.not_eq_true, State.awaits_eq_true_iff, h.phase]
  simp

theorem not_running (h : Halted s) : ¬(s.state.phase = .ready ∨ s.state.phase = .executing) := by
  rw [h.phase]
  simp

/-- A call takes a step that brings it no other ticket. -/
theorem setCall (h : Halted s) {k : Call} (k' : Call) (stands : s.call? c = some k)
    (ticket : k'.duty.ticket? = k.duty.ticket?) : Halted (s.setCall c k') where
  phase := h.phase
  outdated e q t hq ht := by
    by_cases he : e = c
    · subst he
      rw [call?_setCall_self] at hq
      cases hq
      exact h.outdated e k t stands (ticket ▸ ht)
    · rw [call?_setCall_of_ne _ _ he] at hq
      exact h.outdated e q t hq ht

/-- A call that has not been there takes up no duty. -/
theorem ask (h : Halted s) (o : Nat) : Halted (s.setCall c (.asking o)) where
  phase := h.phase
  outdated e q t hq ht := by
    by_cases he : e = c
    · subst he
      rw [call?_setCall_self] at hq
      cases hq
      cases ht
    · rw [call?_setCall_of_ne _ _ he] at hq
      exact h.outdated e q t hq ht

/-- Any call may go. -/
theorem endCall (h : Halted s) (c : CallId) : Halted (s.endCall c) where
  phase := h.phase
  outdated e q t hq ht := by
    rw [call?_endCall] at hq
    split at hq
    · cases hq
    · exact h.outdated e q t hq ht

/-- How the last start ended does not matter. -/
theorem withLastStart (h : Halted s) (q : Option (Except Failure Unit)) :
    Halted { s with state := { s.state with lastStart := q } } :=
  ⟨h.phase, h.outdated⟩

/-- An execution that is asked for now is refused. -/
theorem execute_eq (h : Halted s) {n : Nat} {code : String} {b : Option Budget}
    (free : s.call? (.caller n) = none) (valid : (b.getD s.defaults).validate = .ok ()) :
    s.step (.execute n code b) =
      some (s, some (.executed (.error (.notInitialized s.language)))) := by
  have refused : s.execute (.caller n) code (b.getD s.defaults) =
      (s, some (.executed (.error (.notInitialized s.language)))) := by
    unfold execute
    rw [valid, State.checkOut_of_idle (by simp [h.phase]) (by simp [h.phase])]
  exact (Step.execute free refused).step_eq

end Halted

/-! ## What keeps an adapter down -/

/-- An adapter that will stay down: it is at a halt, and nothing has been left. -/
structure Down (drops : Bool) (s : System) : Prop extends Halted s, IsQuiet drops s

namespace Down

/-- The rest of the system does not matter. -/
theorem of_eq (h : Down drops s) (state : s'.state = s.state) (calls : s'.calls = s.calls)
    (replacements : s'.replacements = s.replacements) (orders : s'.orders = s.orders) :
    Down drops s' := by
  have same (c : CallId) : s'.call? c = s.call? c := congrArg (Table.get? · c) calls
  have asks (c o) : s'.Asks c o ↔ s.Asks c o := by
    unfold Asks
    rw [same]
  have bound (c) : s'.Bound drops c ↔ s.Bound drops c := by
    unfold Bound
    rw [same]
  have spoiled : s'.Spoiled drops ↔ s.Spoiled drops := by
    unfold Spoiled
    rw [state]
    simp only [bound]
  refine ⟨⟨?_, ?_⟩, ⟨?_, ?_, ?_⟩⟩
  · rw [state, h.phase]
  · intro c k t hk ht
    rw [state]
    exact h.outdated c k t (same c ▸ hk) ht
  · rw [replacements, h.replacements]
  · rw [orders, h.orders]
  · intro c o hc
    rw [state, spoiled]
    exact h.asks c o ((asks c o).1 hc)

/-- A call takes a step that brings it no other ticket and makes it see no other number of starts;
a start that is bound to its end remains so. -/
theorem setCall (h : Down drops s) {k : Call} (k' : Call) (stands : s.call? c = some k)
    (ticket : k'.duty.ticket? = k.duty.ticket?) (observed : k'.observed? = k.observed?)
    (bound : ∀ t, k.duty = .starts t → k'.duty = .starts t ∧ (k'.isPending → k.isPending)) :
    Down drops (s.setCall c k') := by
  have asks (d o) (hd : (s.setCall c k').Asks d o) : s.Asks d o := by
    obtain ⟨q, hq, ho⟩ := hd
    by_cases same : d = c
    · subst same
      rw [call?_setCall_self] at hq
      cases hq
      exact ⟨k, stands, observed ▸ ho⟩
    · rw [call?_setCall_of_ne _ _ same] at hq
      exact ⟨q, hq, ho⟩
  have stays (d) (hd : s.Bound drops d) : (s.setCall c k').Bound drops d := by
    obtain ⟨q, t, hq, duty, kept⟩ := hd
    by_cases same : d = c
    · subst same
      rw [stands] at hq
      cases hq
      obtain ⟨duty', pending⟩ := bound t duty
      refine ⟨k', t, call?_setCall_self .., duty', ?_⟩
      unfold mayDrop at kept ⊢
      split
      · simp only [Bool.and_eq_false_iff] at kept ⊢
        refine kept.imp_right fun hk => ?_
        rw [← Bool.not_eq_true] at hk ⊢
        exact fun hk' => hk (pending hk')
      · rfl
    · exact ⟨q, t, (call?_setCall_of_ne _ _ same).trans hq, duty, kept⟩
  refine ⟨h.toHalted.setCall k' stands ticket, ⟨h.replacements, h.orders, ?_⟩⟩
  intro d o hd
  obtain ⟨new, spoiled⟩ := h.asks d o (asks d o hd)
  exact ⟨new, spoiled.imp_right fun ⟨e, he⟩ => ⟨e, stays e he⟩⟩

/-- What lies at the ends of the lines to the workers does not matter. -/
theorem setDesk (h : Down drops s) (w : WorkerId) (b : Worker.Desk) : Down drops (s.setDesk w b) :=
  h.of_eq rfl rfl rfl rfl

/-- Nor does it matter which workers run. -/
theorem kill (h : Down drops s) (w : Option WorkerId) : Down drops (s.kill w) := h.of_eq rfl rfl rfl rfl

/-- An execution goes on, or comes to its end. -/
theorem setRun (h : Down drops s) {k k' : Call} {t : Ticket} {w : WorkerId}
    (stands : s.call? c = some k) (runs : k.duty = .runs t w) (runs' : k'.duty = .runs t w) :
    Down drops (s.setCall c k') := by
  have unasked {q : Call} (hq : q.duty = .runs t w) : q.observed? = none := by
    cases q <;> simp_all [Call.duty, Call.observed?]
  refine h.setCall k' stands (by rw [runs, runs']) ((unasked runs').trans (unasked runs).symm) ?_
  rw [runs]
  simp

/-- A start comes to a failing end. What has failed can no longer be given up. -/
theorem failStart (h : Down drops s) {k : Call} {t : Ticket} {e : Failure}
    (stands : s.call? c = some k) (starting : k.starting? = some t) :
    Down drops (s.failStart c k t e) := by
  have duty := duty_of_starting starting
  have observed : k.observed? = none := by cases k <;> simp_all [Call.starting?, Call.observed?]
  exact (h.kill k.worker?).setCall (.started t (.error e)) stands (congrArg Duty.ticket? duty).symm
    observed.symm fun u hu => ⟨duty.symm.trans hu, Bool.noConfusion⟩

/-- A call goes that is no start bound to its end. -/
theorem endCall (h : Down drops s) (free : ¬s.Bound drops c) : Down drops (s.endCall c) := by
  refine ⟨h.toHalted.endCall c, ⟨h.replacements, h.orders, ?_⟩⟩
  intro d o asks
  obtain ⟨k, hk, ho⟩ := asks
  have hd : d ≠ c := by
    intro same
    subst same
    simp at hk
  have old : s.Asks d o := ⟨k, by simpa [hd] using hk, ho⟩
  obtain ⟨new, spoiled⟩ := h.asks d o old
  refine ⟨new, spoiled.imp_right ?_⟩
  intro bound
  obtain ⟨e, he⟩ := bound
  have other : e ≠ c := by
    intro same
    subst same
    exact free he
  obtain ⟨q, t, hq, duty, kept⟩ := he
  exact ⟨e, q, t, by simpa [other] using hq, duty, kept⟩

/-- Only a start is bound to its end. -/
theorem not_bound {k : Call} (stands : s.call? c = some k) (duty : ∀ t, k.duty ≠ .starts t) :
    ¬s.Bound drops c := by
  intro bound
  obtain ⟨q, t, hq, hd, -⟩ := bound
  rw [stands] at hq
  cases hq
  exact duty t hd

/-- An overtaken start that comes to its end lets everyone fail who is on the way to the turn. -/
theorem settleStart (h : Down drops s) {t : Ticket} {q : Except Failure WorkerId}
    (stands : s.call? c = some (.started t q)) (settled : s.settleStart c t q = (s', r)) :
    Down drops s' := by
  obtain ⟨v, rfl⟩ := settleStart_cases settled
  rw [State.leave_of_outdated (h.isOutdated stands rfl)]
  have halted : Halted (({ s with state := { s.state with
      lastStart := some (.error (State.overtaken s.language)) } }).endCall c) :=
    (h.toHalted.withLastStart _).endCall c
  have down : Down drops (({ s with state := { s.state with
      lastStart := some (.error (State.overtaken s.language)) } }).endCall c) := by
    refine ⟨halted, ⟨h.replacements, h.orders, ?_⟩⟩
    intro d o asks
    obtain ⟨k, hk, ho⟩ := asks
    have hd : d ≠ c := by
      intro same
      subst same
      simp at hk
    rw [call?_endCall, if_neg hd] at hk
    exact ⟨(h.asks d o ⟨k, hk, ho⟩).1, .inl ⟨_, rfl⟩⟩
  exact down.of_eq rfl rfl rfl rfl

/-- Nobody who has the turn begins a start. -/
theorem takeTurn (h : Down drops s) (lined : s.ledger.Lined) {o : Nat}
    (stands : s.call? c = some (.waiting o)) (first : s.line.head? = some c)
    (taken : s.takeTurn c o = (s', r)) : Down drops s' := by
  have asked : s.Asks c o := ⟨_, stands, rfl⟩
  obtain ⟨new, spoiled⟩ := h.asks c o asked
  rcases takeTurn_cases taken with ⟨running, -⟩ | ⟨-, ⟨e, -, rfl⟩ | ⟨shared, -⟩⟩
  · exact absurd running h.toHalted.not_running
  · exact h.endCall (not_bound stands (by simp [Call.duty]))
  · rcases spoiled with ⟨e, last⟩ | ⟨d, k, t, hk, duty, -⟩
    · have fails := State.sharedFailure?_eq_some_iff.2 ⟨Ne.symm new, last⟩
      rw [shared] at fails
      cases fails
    · -- a start that is bound to its end has the turn itself
      have head : s.line.head? = some d := lined.first d t ((duty_of_stands hk).trans duty)
      have same : d = c := Option.some.inj (head.symm.trans first)
      subst same
      rw [stands] at hk
      cases hk
      cases duty

/-- An overtaken execution changes neither the state nor what has been ordered. -/
theorem settleExecution (h : Down drops s) {t : Ticket} {w : WorkerId} {x : Errand}
    {e : Option Worker.Execution} {ending : Worker.Ending}
    (stands : s.call? c = some (.executed t w x e ending)) :
    Down drops (s.settleExecution c t w ending) := by
  have ended := h.endCall (not_bound stands (by simp [Call.duty]))
  have unwanted := h.toHalted.not_awaits t
  cases keeps : ending.keepsWorker with
  | true =>
    obtain ⟨v, hs⟩ := settleExecution_of_keeps (s := s) (c := c) (t := t) (w := w) keeps
    rw [hs, State.checkIn_of_not_awaits unwanted]
    exact ended.of_eq rfl rfl rfl rfl
  | false =>
    rw [settleExecution_of_lost keeps, State.discard_of_not_awaits unwanted,
      if_neg (by simp [unwanted])]
    exact ended.of_eq rfl rfl rfl rfl

/-- A further termination changes nothing of it. -/
theorem terminate (h : Down drops s) (dated : s.ledger.Dated) : Down drops s.terminate :=
  ⟨halted_terminate dated, ⟨h.replacements, h.orders, h.asks⟩⟩

/-- Only a start that may not be given up is bound to its end. -/
theorem drop (h : Down drops s) {n : Nat} {k : Call} (ok : drops = true)
    (stands : s.call? (.caller n) = some k) (pending : k.isPending = true) :
    Down drops (s.drop (.caller n) k) := by
  have free : ¬s.Bound drops (.caller n) := by
    intro bound
    obtain ⟨q, t, hq, -, kept⟩ := bound
    rw [stands] at hq
    cases hq
    simp [mayDrop, ok, pending] at kept
  exact (h.endCall free).of_eq rfl rfl rfl rfl

/-- Every step but asking for a worker keeps the adapter down, and begins no start. -/
theorem step (h : Down drops s) (lawful : s.ledger.Lawful) (ok : Unasked drops l)
    (step : Step s l s' r) : Down drops s' ∧ s'.starts = s.starts := by
  cases step with
  | prepare _ _ => cases ok
  | replace _ ordered _ => exact absurd h.replacements ordered
  | @queue c o stands =>
    have down := h.setCall (.waiting o) stands rfl rfl (by simp [Call.duty])
    exact ⟨down.of_eq rfl rfl rfl rfl, rfl⟩
  | enter stands first taken =>
    refine ⟨h.takeTurn lawful.toLined stands first taken, ?_⟩
    rcases takeTurn_cases taken with ⟨-, rfl⟩ | ⟨-, ⟨e, -, rfl⟩ | ⟨-, rfl⟩⟩ <;> rfl
  | plan ordered =>
    rw [h.orders] at ordered
    cases ordered
  | wake stands going wanted =>
    -- whatever is woken is to stop
    rw [h.isCancelled lawful.toDated stands (ticket?_duty_of_going going)] at wanted
    cases wanted
  | rest _ _ _ => exact ⟨h.of_eq rfl rfl rfl rfl, rfl⟩
  | @launch c t n stands _ _ =>
    have down := h.setCall (.readying t s.desks.length .start) stands rfl rfl
      fun u hu => ⟨hu, fun _ => rfl⟩
    exact ⟨down.of_eq rfl rfl rfl rfl, rfl⟩
  | listen stands _ taken =>
    obtain ⟨b, m, ms, u', -, -, ⟨-, rfl⟩ | ⟨v, -, rfl⟩⟩ := listen_cases taken
    · exact ⟨(h.setDesk _ _).setCall _ stands rfl rfl fun u hu => ⟨hu, fun _ => rfl⟩, rfl⟩
    · exact ⟨(h.setDesk _ _).setCall _ stands rfl rfl fun u hu => ⟨hu, Bool.noConfusion⟩, rfl⟩
  | fail stands starting _ _ => exact ⟨h.failStart stands starting, rfl⟩
  | stop stands starting _ => exact ⟨h.failStart stands starting, rfl⟩
  | execute free taken =>
    rcases execute_cases taken with rfl | ⟨ready, -⟩
    · exact ⟨h, rfl⟩
    · exact absurd (.inl ready) h.not_running
  | send stands _ sent =>
    obtain ⟨b, -, rfl⟩ := send_cases sent
    exact ⟨(h.setDesk _ _).setRun stands rfl rfl, rfl⟩
  | receive stands _ taken =>
    obtain ⟨b, m, ms, e', -, -, ⟨-, rfl⟩ | ⟨fault, -, rfl⟩⟩ := receive_cases taken
    · exact ⟨(h.setDesk _ _).setRun stands rfl rfl, rfl⟩
    · exact ⟨(h.setDesk _ _).setRun stands rfl rfl, rfl⟩
  | abandon stands _ => exact ⟨(h.kill _).setRun stands rfl rfl, rfl⟩
  | settleStart stands settled =>
    refine ⟨h.settleStart stands settled, ?_⟩
    obtain ⟨v, rfl⟩ := settleStart_cases settled
    rfl
  | @settleExecution c t w x e ending stands =>
    refine ⟨h.settleExecution stands, ?_⟩
    obtain ⟨state, v, n, settled⟩ := s.settleExecution_cases c t w ending
    rw [settled]
    rfl
  | terminate => exact ⟨h.terminate lawful.toDated, rfl⟩
  | drop stands pending => exact ⟨h.drop ok stands pending, rfl⟩
  | deliver _ => exact ⟨h.of_eq rfl rfl rfl rfl, rfl⟩

/-- An adapter that is down stays down. -/
theorem staysDown (h : Down drops s) (lawful : s.ledger.Lawful) : StaysDown drops s := by
  intro s' run
  -- the laws of the ledger go along, and that no start has begun
  have kept : Down drops s' ∧ s'.ledger.Lawful ∧ s'.starts = s.starts := by
    refine run.keeps (P := fun s' => Down drops s' ∧ s'.ledger.Lawful ∧ s'.starts = s.starts) ?_
      ⟨h, lawful, rfl⟩
    intro s₁ l s₂ r ok kept step
    obtain ⟨down, law, same⟩ := kept
    obtain ⟨down', same'⟩ := down.step law ok step
    exact ⟨down', step.lawful law, same'.trans same⟩
  obtain ⟨down, -, same⟩ := kept
  exact ⟨same, down.phase, fun n code b free valid => down.execute_eq free valid⟩

end Down

/-! ## What begins a start -/

/-- Without anybody asking for a worker, a start may begin. -/
def MayStart (drops : Bool) (s : System) : Prop :=
  ∃ s', Runs (Unasked drops) s s' ∧ s'.starts = s.starts + 1

/-- What may begin later may begin. -/
theorem MayStart.of_run (run : Runs (Unasked drops) s s') (starts : s'.starts = s.starts)
    (h : MayStart drops s') : MayStart drops s := by
  obtain ⟨s'', rest, more⟩ := h
  exact ⟨s'', run.trans rest, more.trans (by rw [starts])⟩

theorem StaysDown.not_mayStart (h : StaysDown drops s) : ¬MayStart drops s := by
  intro may
  obtain ⟨s', run, more⟩ := may
  have same := (h s' run).1
  omega

/-- A launch plan that has been ordered may begin. -/
theorem mayStart_of_ordered {n : Nat} (h : n ∈ s.orders) : MayStart drops s :=
  ⟨_, .single (l := .plan n) trivial (.plan h), rfl⟩

/-- A call that has left the line without a start: the others are where they were. -/
structure Passed (drops : Bool) (c : CallId) (s s' : System) : Prop where
  run : Runs (Unasked drops) s s'
  halted : Halted s'
  lawful : s'.ledger.Lawful
  starts : s'.starts = s.starts
  attempts : s'.state.attempts = s.state.attempts
  line : s'.line = s.line.filter fun d => d != c
  others : ∀ d, d ≠ c → s'.call? d = s.call? d

namespace Halted

/-- The call whose turn it is begins a start, unless it shares a failure. -/
theorem mayStart_of_turn (h : Halted s) {o : Nat} (stands : s.call? c = some (.waiting o))
    (first : s.line.head? = some c) (unshared : s.state.sharedFailure? o = none) :
    MayStart drops s := by
  have taken : s.takeTurn c o = (s.begun c, none) := takeTurn_of_not_shared h.not_running unshared
  have run : Runs (Unasked drops) s (s.begun c) :=
    .single (l := .enter c) trivial (.enter stands first taken)
  have ordered : s.state.attempts + 1 ∈ (s.begun c).orders :=
    List.mem_append_right _ List.mem_cons_self
  exact (mayStart_of_ordered ordered).of_run run rfl

/-- A start that a termination has overtaken comes to its end. -/
theorem passed_of_started (h : Halted s) (lawful : s.ledger.Lawful) {t : Ticket}
    {q : Except Failure WorkerId} (stands : s.call? c = some (.started t q)) :
    ∃ s', Passed drops c s s' := by
  rcases settled : s.settleStart c t q with ⟨s', r⟩
  have step := Step.settleStart stands settled
  obtain ⟨v, hs⟩ := settleStart_cases settled
  rw [State.leave_of_outdated (h.isOutdated stands rfl)] at hs
  refine ⟨s', .single (l := .settle c) trivial step, ?_, step.lawful lawful, ?_, ?_, ?_, ?_⟩
  · rw [hs]
    exact ⟨h.phase, ((h.withLastStart _).endCall c).outdated⟩
  · rw [hs]
    rfl
  · rw [hs]
    rfl
  · rw [hs]
    rfl
  · intro d hd
    rw [hs, call?_kill, call?_endCall, if_neg hd]
    rfl

/-- A start that a termination has overtaken stops. -/
theorem passed_of_starts (h : Halted s) (lawful : s.ledger.Lawful) {k : Call} {t : Ticket}
    (stands : s.call? c = some k) (duty : k.duty = .starts t) : ∃ s', Passed drops c s s' := by
  cases going : k.starting? with
  | none =>
    obtain ⟨q, rfl⟩ : ∃ q, k = .started t q := by
      cases k <;> simp_all [Call.duty, Call.starting?]
    exact h.passed_of_started lawful stands
  | some u =>
    have same : u = t := by
      have both := (duty_of_starting going).symm.trans duty
      cases both
      rfl
    subst same
    have cancelled := h.isCancelled lawful.toDated stands (congrArg Duty.ticket? duty)
    have step := Step.stop stands going cancelled
    have halted : Halted (s.failStart c k u (State.overtaken s.language)) :=
      Halted.setCall (s := s.kill k.worker?) ⟨h.phase, h.outdated⟩ _ stands
        (congrArg Duty.ticket? duty).symm
    have stands' : (s.failStart c k u (State.overtaken s.language)).call? c =
        some (.started u (.error (State.overtaken s.language))) := call?_setCall_self ..
    obtain ⟨s', passed⟩ :
        ∃ s', Passed drops c (s.failStart c k u (State.overtaken s.language)) s' :=
      halted.passed_of_started (step.lawful lawful) stands'
    have run : Runs (Unasked drops) s (s.failStart c k u (State.overtaken s.language)) :=
      .single (l := .stop c) trivial step
    refine ⟨s', run.trans passed.run, passed.halted, passed.lawful, passed.starts, passed.attempts,
      passed.line, ?_⟩
    intro d hd
    rw [passed.others d hd]
    exact call?_setCall_of_ne (s.kill k.worker?) _ hd

/-- The call whose turn it is begins a start, or makes way for the next one. -/
theorem mayStart_or_passed (h : Halted s) (lawful : s.ledger.Lawful)
    (first : s.line.head? = some c) : MayStart drops s ∨ ∃ s', Passed drops c s s' := by
  have inLine : c ∈ s.line := List.mem_of_mem_head? first
  rcases (lawful.mem_iff c).1 inLine with waits | ⟨t, starts⟩
  · obtain ⟨k, stands, duty⟩ := stands_of_duty waits (by simp)
    obtain ⟨o, rfl⟩ : ∃ o, k = .waiting o := by cases k <;> simp_all [Call.duty]
    cases shared : s.state.sharedFailure? o with
    | none => exact .inl (h.mayStart_of_turn stands first shared)
    | some e =>
      have taken : s.takeTurn c o = (s.endCall c, some (.initialized (.error e))) :=
        takeTurn_of_shared h.not_running shared
      have step := Step.enter stands first taken
      refine .inr ⟨s.endCall c, .single (l := .enter c) trivial step, h.endCall c,
        step.lawful lawful, rfl, rfl, rfl, ?_⟩
      intro d hd
      rw [call?_endCall, if_neg hd]
  · obtain ⟨k, stands, duty⟩ := stands_of_duty starts (by simp)
    exact .inr (h.passed_of_starts lawful stands duty)

/-- A call that waits and has seen the present number of starts shares no failure: when those before
it have made way, it begins a start. The induction is on the length of the line. -/
theorem mayStart_of_waiting (n : Nat) : ∀ s : System, s.line.length = n → Halted s →
    s.ledger.Lawful → s.call? c = some (.waiting s.state.attempts) → MayStart drops s := by
  induction n using Nat.strong_induction_on with
  | _ n ih =>
    intro s len h lawful stands
    obtain ⟨d, first⟩ := lawful.exists_first (duty_of_stands stands)
    by_cases hd : c = d
    · subst hd
      have unshared : s.state.sharedFailure? s.state.attempts = none := by
        simp [State.sharedFailure?]
      exact h.mayStart_of_turn stands first unshared
    · have next : MayStart drops s ∨ ∃ s', Passed drops d s s' :=
        h.mayStart_or_passed lawful first
      rcases next with may | ⟨s', passed⟩
      · exact may
      · -- the first call has made way, and the line is shorter
        have shorter : s'.line.length < n := by
          rw [passed.line, ← len]
          exact List.length_filter_lt_length_iff_exists.2 ⟨d, List.mem_of_mem_head? first, by simp⟩
        have stands' : s'.call? c = some (.waiting s'.state.attempts) := by
          rw [passed.others c hd, passed.attempts, stands]
        exact (ih _ shorter s' rfl passed.halted passed.lawful stands').of_run passed.run
          passed.starts

/-- Where nothing lets it fail, a call that waits begins a start as soon as it has the turn. -/
theorem mayStart_of_unspoiled_turn (h : Halted s)
    (unspoiled : ∀ e, s.state.lastStart ≠ some (.error e)) (first : s.line.head? = some c)
    (waits : s.ledger.duty c = .waits) : MayStart drops s := by
  obtain ⟨k, stands, duty⟩ := stands_of_duty waits (by simp)
  obtain ⟨o, rfl⟩ : ∃ o, k = .waiting o := by cases k <;> simp_all [Call.duty]
  refine h.mayStart_of_turn stands first ?_
  rw [Option.eq_none_iff_forall_ne_some]
  intro e shared
  exact unspoiled e (State.sharedFailure?_eq_some_iff.1 shared).2

/-- Where nothing lets them fail, some call of those in line begins a start: a start that is in the
way can be given up. -/
theorem mayStart_of_unspoiled (h : Halted s) (lawful : s.ledger.Lawful)
    (unspoiled : ¬s.Spoiled drops) {o : Nat} (stands : s.call? c = some (.waiting o)) :
    MayStart drops s := by
  rw [Spoiled, not_or, not_exists, not_exists] at unspoiled
  obtain ⟨last, unbound⟩ := unspoiled
  obtain ⟨d, first⟩ := lawful.exists_first (duty_of_stands stands)
  rcases (lawful.mem_iff d).1 (List.mem_of_mem_head? first) with waits | ⟨t, starts⟩
  · exact h.mayStart_of_unspoiled_turn last first waits
  · obtain ⟨k, stands', duty⟩ := stands_of_duty starts (by simp)
    -- a start has the turn; nothing binds it to its end, so its caller gives it up
    have may : mayDrop drops d k = true := by
      rw [← Bool.not_eq_false]
      exact fun kept => unbound d ⟨k, t, stands', duty, kept⟩
    cases d with
    | background n => cases may
    | caller n =>
      rw [mayDrop, Bool.and_eq_true] at may
      have step := Step.drop stands' may.2
      have lawful' := step.lawful lawful
      have hd : c ≠ .caller n := by
        intro same
        subst same
        rw [stands] at stands'
        cases stands'
        cases duty
      have stays : (s.drop (.caller n) k).call? c = some (.waiting o) := by
        rw [System.drop, call?_kill, call?_endCall, if_neg hd, stands]
      have halted' : Halted (s.drop (.caller n) k) := ⟨h.phase, (h.endCall (.caller n)).outdated⟩
      obtain ⟨e, first'⟩ := lawful'.exists_first (duty_of_stands stays)
      have may' : MayStart drops (s.drop (.caller n) k) := by
        rcases (lawful'.mem_iff e).1 (List.mem_of_mem_head? first') with waits | ⟨u, starts'⟩
        · exact halted'.mayStart_of_unspoiled_turn last first' waits
        · -- the only call that has started is gone
          obtain ⟨q, hq, duty'⟩ := stands_of_duty starts' (by simp)
          rw [System.drop, call?_kill, call?_endCall] at hq
          split at hq
          · cases hq
          next other =>
            have before : s.ledger.duty e = .starts u := (duty_of_stands hq).trans duty'
            exact absurd (lawful.unique before starts) other
      exact may'.of_run (.single (l := .drop n) may.1 step) rfl

/-- A call on its way to the turn gets in line. -/
theorem exists_waiting (drops : Bool) (h : Halted s) (lawful : s.ledger.Lawful) {o : Nat}
    (asks : s.Asks c o) :
    ∃ s', Runs (Unasked drops) s s' ∧ Halted s' ∧ s'.ledger.Lawful ∧ s'.starts = s.starts ∧
      s'.state = s.state ∧ s'.call? c = some (.waiting o) ∧
      ∀ d, s'.Bound drops d → s.Bound drops d := by
  obtain ⟨k, stands, observed⟩ := asks
  cases k with
  | waiting p =>
    cases observed
    exact ⟨s, .refl, h, lawful, rfl, rfl, stands, fun _ hd => hd⟩
  | asking p =>
    cases observed
    have step := Step.queue stands
    refine ⟨_, .single (l := .queue c) trivial step,
      ⟨h.phase, (h.setCall (.waiting o) stands rfl).outdated⟩, step.lawful lawful, rfl, rfl,
      call?_setCall_self .., ?_⟩
    intro d bound
    obtain ⟨q, t, hq, duty, kept⟩ := bound
    rw [call?_lineUp, call?_setCall] at hq
    split at hq
    · cases hq
      cases duty
    · exact ⟨q, t, hq, duty, kept⟩
  | _ => cases observed

/-- A call on its way to the turn that has seen the present number of starts begins a start. -/
theorem mayStart_of_asks (h : Halted s) (lawful : s.ledger.Lawful)
    (asks : s.Asks c s.state.attempts) : MayStart drops s := by
  obtain ⟨s', run, halted, lawful', starts, state, stands, -⟩ :=
    h.exists_waiting drops lawful asks
  rw [← state] at stands
  exact (halted.mayStart_of_waiting _ s' rfl lawful' stands).of_run run starts

end Halted

/-- There are always names left for calls. -/
theorem exists_free (s : System) (f : Nat → CallId) (hf : Function.Injective f) :
    ∃ n, s.call? (f n) = none := by
  by_contra taken
  -- otherwise infinitely many names stand in a finite table
  have names (n : Nat) : f n ∈ {c | c ∈ s.calls.entries.map Prod.fst} := by
    obtain ⟨k, hk⟩ := Option.ne_none_iff_exists'.1 fun free => taken ⟨n, free⟩
    exact Table.mem_names_of_get? hk
  exact Set.infinite_of_injective_forall_mem hf names (List.finite_toSet _)

namespace Halted

/-- A replacement that has been ordered begins a start. -/
theorem mayStart_of_replacements (h : Halted s) (lawful : s.ledger.Lawful)
    (ordered : s.replacements ≠ 0) : MayStart drops s := by
  obtain ⟨n, free⟩ := s.exists_free .background fun _ _ same => CallId.background.inj same
  have asked : ({ s with replacements := s.replacements - 1 } : System).ask (.background n) =
      (({ s with replacements := s.replacements - 1 } : System).setCall (.background n)
        (.asking s.state.attempts), none) := by
    unfold System.ask
    rw [State.observe_of_not_ready (by simp [h.phase])]
  have step := Step.replace free ordered asked
  have halted : Halted (({ s with replacements := s.replacements - 1 } : System).setCall
      (.background n) (.asking s.state.attempts)) :=
    Halted.ask (s := { s with replacements := s.replacements - 1 }) ⟨h.phase, h.outdated⟩ _
  have asks : (({ s with replacements := s.replacements - 1 } : System).setCall
      (.background n) (.asking s.state.attempts)).Asks (.background n) s.state.attempts :=
    ⟨_, call?_setCall_self .., rfl⟩
  exact (halted.mayStart_of_asks (step.lawful lawful) asks).of_run
    (.single (l := .replace n) trivial step) rfl

/-- Whatever has been left may begin a start. -/
theorem isQuiet_of_staysDown (h : Halted s) (lawful : s.ledger.Lawful)
    (down : StaysDown drops s) : IsQuiet drops s := by
  have never := down.not_mayStart
  refine ⟨?_, ?_, ?_⟩
  · by_contra ordered
    exact never (h.mayStart_of_replacements lawful ordered)
  · rw [List.eq_nil_iff_forall_not_mem]
    intro n ordered
    exact never (mayStart_of_ordered ordered)
  · intro c o asks
    constructor
    · intro same
      subst same
      exact never (h.mayStart_of_asks lawful asks)
    · by_contra unspoiled
      obtain ⟨s', run, halted, lawful', starts, state, stands, bound⟩ :=
        h.exists_waiting drops lawful asks
      have still : ¬s'.Spoiled drops := by
        rintro (⟨e, last⟩ | ⟨d, hd⟩)
        · exact unspoiled (.inl ⟨e, state ▸ last⟩)
        · exact unspoiled (.inr ⟨d, bound d hd⟩)
      exact never ((halted.mayStart_of_unspoiled lawful' still stands).of_run run starts)

end Halted

/-! ## The exact condition -/

/-- After a termination, and until somebody asks for a worker, no start begins, the adapter has no
worker and nothing can be executed, if and only if nothing has been left that begins a start
later. -/
theorem staysDown_terminate_iff {language : String} {b : Budget}
    (run : Runs (fun _ => True) (new language b) s) :
    StaysDown drops s.terminate ↔ IsQuiet drops s := by
  have lawful := run.lawful
  have after : s.terminate.ledger.Lawful := Step.terminate.lawful lawful
  have halted := halted_terminate lawful.toDated
  constructor
  · intro down
    have quiet := halted.isQuiet_of_staysDown after down
    exact ⟨quiet.replacements, quiet.orders, quiet.asks⟩
  · intro quiet
    have down : Down drops s.terminate :=
      ⟨halted, ⟨quiet.replacements, quiet.orders, quiet.asks⟩⟩
    exact down.staysDown after

/-- The worker of the only execution is lost. -/
def losing : List Label :=
  [.prepare 0, .queue (.caller 0), .enter (.caller 0), .plan 1, .wake (.caller 0),
    .launch (.caller 0), .deliver 0 (.event (.ready "5.4")), .listen (.caller 0),
    .settle (.caller 0), .execute 1 "os.exit(3)" none, .wake (.caller 1), .send (.caller 1),
    .abandon (.caller 1) (.lost "exit status: 3"), .settle (.caller 1)]

/-- A lost worker's replacement begins after a termination that comes before it; where the worker
has not been lost, the adapter stays down. -/
theorem staysDown_terminate_losing :
    (∃ s, (new "lua" .standard).follow losing = some s ∧ ¬StaysDown false s.terminate) ∧
    (∃ s, (new "lua" .standard).follow (losing.take 9) = some s ∧
      s.state.phase = .ready ∧ StaysDown true s.terminate) := by
  constructor
  · refine ⟨_, rfl, ?_⟩
    have run := @Runs.of_follow (fun _ => True) (new "lua" .standard) _ losing rfl
      fun _ _ => trivial
    intro down
    have none := ((staysDown_terminate_iff run).1 down).replacements
    cases none
  · refine ⟨_, rfl, rfl, ?_⟩
    have run := @Runs.of_follow (fun _ => True) (new "lua" .standard) _ (losing.take 9) rfl
      fun _ _ => trivial
    refine (staysDown_terminate_iff run).2 ⟨rfl, rfl, ?_⟩
    intro c o asks
    obtain ⟨k, hk, -⟩ := asks
    cases hk

end System

end SnippetRunner.Adapter
