import SnippetRunner.Adapter.System
import SnippetRunner.Proofs.Adapter.State

/-!
# Steps and runs of an adapter

The step function as a relation with one constructor for each way in which a label fits, so that
what a step can do is said once. Below it stand the few facts about the parts of a system that
every later argument about steps needs, and runs: chains of steps whose labels are allowed.
-/

namespace SnippetRunner.Adapter.System

/-! ## Parts of a system -/

section
variable {c d : CallId}

@[simp] theorem call?_setCall (s : System) (c d : CallId) (k : Call) :
    (s.setCall c k).call? d = if d = c then some k else s.call? d :=
  Table.get?_set ..

@[simp] theorem call?_endCall (s : System) (c d : CallId) :
    (s.endCall c).call? d = if d = c then none else s.call? d :=
  Table.get?_erase ..

@[simp] theorem call?_kill (s : System) (w : Option WorkerId) : (s.kill w).call? d = s.call? d := rfl

@[simp] theorem call?_lineUp (s : System) : (s.lineUp c).call? d = s.call? d := rfl

@[simp] theorem call?_wake (s : System) : (s.wake c).call? d = s.call? d := rfl

@[simp] theorem call?_rest (s : System) : (s.rest c).call? d = s.call? d := rfl

/-- A new call stands under its own name alone. -/
theorem call?_setCall_self (s : System) (c : CallId) (k : Call) :
    (s.setCall c k).call? c = some k := by
  simp

/-- Other calls stand where they stood. -/
theorem call?_setCall_of_ne (s : System) (k : Call) (h : d ≠ c) :
    (s.setCall c k).call? d = s.call? d := by
  simp [h]

end

/-! ## Calls that are awake -/

section
variable {s : System} {c d : CallId} {t : Ticket} {ending : Worker.Ending}

@[simp] theorem mem_awake_wake : d ∈ (s.wake c).awake ↔ d = c ∨ d ∈ s.awake := List.mem_insert_iff

@[simp] theorem mem_awake_rest : d ∈ (s.rest c).awake ↔ d ∈ s.awake ∧ d ≠ c := by
  simp [rest]

@[simp] theorem mem_awake_endCall : d ∈ (s.endCall c).awake ↔ d ∈ s.awake ∧ d ≠ c := by
  simp [endCall]

/-- A call that is awake is not changed by being woken. -/
theorem wake_of_awake (awake : c ∈ s.awake) : s.wake c = s := by
  unfold wake
  rw [List.insert_of_mem awake]

/-- While it is awake an execution may come to any end that loses its worker, but for being terminated. -/
theorem mayEnd_of_awake (awake : c ∈ s.awake) (lost : ending.keepsWorker = false)
    (other : ending ≠ .terminated) : s.mayEnd c t ending = true := by
  cases ending with
  | done fault => cases lost
  | terminated => exact absurd rfl other
  | lost detail => exact decide_eq_true awake
  | outOfTime => exact decide_eq_true awake

theorem awake_of_mayEnd (may : s.mayEnd c t ending = true) (other : ending ≠ .terminated) :
    c ∈ s.awake := by
  cases ending with
  | done fault => cases may
  | terminated => exact absurd rfl other
  | lost detail => exact of_decide_eq_true may
  | outOfTime => exact of_decide_eq_true may

end

/-! ## What calls do -/

section
variable {s s' : System} {c : CallId} {r : Option Reply} {o : Nat} {t : Ticket} {w : WorkerId}

/-- A caller finds a worker, or asks for one and goes on from there. -/
theorem ask_cases (asked : s.ask c = (s', r)) :
    (s.state.phase = .ready ∧ s' = s) ∨
    (s.state.phase ≠ .ready ∧ s' = s.setCall c (.asking s.state.attempts)) := by
  unfold ask at asked
  by_cases h : s.state.phase = .ready
  · rw [State.observe_of_ready h] at asked
    cases asked
    exact .inl ⟨h, rfl⟩
  · rw [State.observe_of_not_ready h] at asked
    cases asked
    exact .inr ⟨h, rfl⟩

/-- The system in which a start has begun for a call. -/
def begun (s : System) (c : CallId) : System :=
  ({ s with state := s.state.begin, orders := s.orders ++ [s.state.attempts + 1] }).setCall c
    (.planning s.state.ticket (s.state.attempts + 1))

/-- A call whose turn it is has nothing to do while the adapter is ready or executes. -/
theorem takeTurn_of_running (h : s.state.phase = .ready ∨ s.state.phase = .executing) :
    s.takeTurn c o = (s.endCall c, some (.initialized (.ok ()))) := by
  unfold takeTurn
  rw [State.enter_of_running h]

/-- It may share a failure. -/
theorem takeTurn_of_shared {e : Failure} (h : ¬(s.state.phase = .ready ∨ s.state.phase = .executing))
    (shared : s.state.sharedFailure? o = some e) :
    s.takeTurn c o = (s.endCall c, some (.initialized (.error e))) := by
  unfold takeTurn
  rw [State.enter_of_shared h shared]

/-- Otherwise it begins a start. -/
theorem takeTurn_of_not_shared (h : ¬(s.state.phase = .ready ∨ s.state.phase = .executing))
    (shared : s.state.sharedFailure? o = none) : s.takeTurn c o = (s.begun c, none) := by
  unfold takeTurn
  rw [State.enter_of_not_shared h shared]
  rfl

/-- A call whose turn it is has nothing to do, or shares a failure, or begins a start. -/
theorem takeTurn_cases (taken : s.takeTurn c o = (s', r)) :
    ((s.state.phase = .ready ∨ s.state.phase = .executing) ∧ s' = s.endCall c) ∨
    (¬(s.state.phase = .ready ∨ s.state.phase = .executing) ∧
      ((∃ e, s.state.sharedFailure? o = some e ∧ s' = s.endCall c) ∨
        (s.state.sharedFailure? o = none ∧ s' = s.begun c))) := by
  by_cases h : s.state.phase = .ready ∨ s.state.phase = .executing
  · rw [takeTurn_of_running h] at taken
    cases taken
    exact .inl ⟨h, rfl⟩
  · refine .inr ⟨h, ?_⟩
    cases shared : s.state.sharedFailure? o with
    | some e =>
      rw [takeTurn_of_shared h shared] at taken
      cases taken
      exact .inl ⟨e, rfl, rfl⟩
    | none =>
      rw [takeTurn_of_not_shared h shared] at taken
      cases taken
      exact .inr ⟨rfl, rfl⟩

/-- A start takes a message and goes on, or its worker is ready. -/
theorem listen_cases {u : Worker.Startup} (taken : s.listen c t w u = some s') :
    ∃ b m ms u', s.desks[w]? = some b ∧ b.messages = m :: ms ∧
      ((u.receive m = (u', none) ∧
          s' = (s.setDesk w { b with messages := ms }).setCall c (.readying t w u')) ∨
        (∃ v, u.receive m = (u', some v) ∧
          s' = (s.setDesk w { b with messages := ms }).setCall c (.started t (.ok w)))) := by
  unfold listen at taken
  obtain ⟨b, known, taken⟩ := Option.bind_eq_some_iff.1 taken
  cases hms : b.messages with
  | nil =>
    rw [Worker.Desk.listen_of_nil hms] at taken
    cases taken
  | cons m ms =>
    rw [Worker.Desk.listen_of_cons hms] at taken
    rcases hm : u.receive m with ⟨u', _ | v⟩
    · rw [hm] at taken
      exact ⟨b, m, ms, u', known, hms, .inl ⟨hm, (Option.some.inj taken).symm⟩⟩
    · rw [hm] at taken
      exact ⟨b, m, ms, u', known, hms, .inr ⟨v, hm, (Option.some.inj taken).symm⟩⟩

/-- The request of an execution is sent under the next number of the worker's desk. -/
theorem send_cases {x : Errand} (sent : s.send c t w x = some s') :
    ∃ b, s.desks[w]? = some b ∧
      s' = (s.setDesk w (b.send x.code x.budget).2).setCall c
        (.executing t w x (some (b.send x.code x.budget).1)) := by
  unfold send at sent
  obtain ⟨b, known, sent⟩ := Option.bind_eq_some_iff.1 sent
  exact ⟨b, known, (Option.some.inj sent).symm⟩

/-- An execution takes a message and goes on, or its request is done. -/
theorem receive_cases {x : Errand} {e : Worker.Execution} (taken : s.receive c t w x e = some s') :
    ∃ b m ms e', s.desks[w]? = some b ∧ b.messages = m :: ms ∧
      ((e.receive m = (e', none) ∧
          s' = (s.setDesk w { b with messages := ms }).setCall c (.executing t w x (some e'))) ∨
        (∃ fault, e.receive m = (e', some fault) ∧
          s' = (s.setDesk w { b with messages := [] }).setCall c
            (.executed t w x (some (e'.drain ms)) (.done fault)))) := by
  unfold receive at taken
  obtain ⟨b, known, taken⟩ := Option.bind_eq_some_iff.1 taken
  cases hms : b.messages with
  | nil =>
    rw [Worker.Desk.receive_of_nil hms] at taken
    cases taken
  | cons m ms =>
    rcases hm : e.receive m with ⟨e', _ | fault⟩
    · rw [Worker.Desk.receive_of_cons hms hm] at taken
      exact ⟨b, m, ms, e', known, hms, .inl ⟨hm, (Option.some.inj taken).symm⟩⟩
    · rw [Worker.Desk.receive_of_done hms hm] at taken
      exact ⟨b, m, ms, e', known, hms, .inr ⟨fault, hm, (Option.some.inj taken).symm⟩⟩

@[simp] theorem kill_none (s : System) : s.kill none = s := by
  unfold kill
  have all : s.live.filter (fun v => some v != none) = s.live := by simp
  rw [all]

/-- A start comes to its end in the state of the adapter; a worker may be killed for it. -/
theorem settleStart_cases {q : Except Failure WorkerId} (settled : s.settleStart c t q = (s', r)) :
    ∃ v, s' = (({ s with state := (s.state.leave s.language t q).2 }).endCall c).kill v := by
  unfold settleStart at settled
  cases hl : s.state.leave s.language t q with
  | mk reply state =>
    rw [hl] at settled
    cases settled
    cases reply with
    | ok _ => exact ⟨none, (kill_none _).symm⟩
    | error _ => exact ⟨q.toOption, rfl⟩

/-- A start that a termination has overtaken is reported as such, and its worker is killed. -/
theorem settleStart_of_outdated {q : Except Failure WorkerId} (outdated : s.state.isOutdated t = true) :
    s.settleStart c t q =
      ((({ s with state := { s.state with
          lastStart := some (.error (State.overtaken s.language)) } }).endCall c).kill q.toOption,
        some (.initialized (.error (State.overtaken s.language)))) := by
  unfold settleStart
  rw [State.leave_of_outdated outdated]

/-- A start that is still wanted brings its worker into the adapter. -/
theorem settleStart_of_ok (wanted : s.state.isOutdated t = false) :
    s.settleStart c t (.ok w) =
      (({ s with state := { s.state with
          phase := .ready, worker := some w, kill := some w, lastStart := some (.ok ()) } }).endCall c,
        some (.initialized (.ok ()))) := by
  unfold settleStart
  rw [State.leave_of_ok wanted]

/-- A start that is still wanted and has failed leaves the adapter without a worker. -/
theorem settleStart_of_error {e : Failure} (wanted : s.state.isOutdated t = false) :
    s.settleStart c t (.error e) =
      (({ s with state := { s.state with
          phase := .uninitialized, lastStart := some (.error e) } }).endCall c,
        some (.initialized (.error e))) := by
  unfold settleStart
  rw [State.leave_of_error wanted]
  exact congrArg (·, _) (kill_none _)

/-- An execution that keeps its worker brings it back to the adapter, which may refuse it. -/
theorem settleExecution_of_keeps {ending : Worker.Ending} (keeps : ending.keepsWorker = true) :
    ∃ v, s.settleExecution c t w ending =
      (({ s with state := s.state.checkIn w t }).endCall c).kill v := by
  unfold settleExecution
  rw [if_pos keeps]
  cases s.state.awaits t with
  | true => exact ⟨none, (kill_none _).symm⟩
  | false => exact ⟨some w, rfl⟩

/-- The adapter takes back a worker that it has awaited. -/
theorem settleExecution_of_awaited {ending : Worker.Ending} (keeps : ending.keepsWorker = true)
    (awaited : s.state.awaits t = true) : s.settleExecution c t w ending =
      ({ s with state := { s.state with phase := .ready, worker := some w } }).endCall c := by
  unfold settleExecution
  rw [if_pos keeps, State.checkIn_of_awaits awaited]
  simp only [awaited, if_true]

/-- Another one is killed. -/
theorem settleExecution_of_unawaited {ending : Worker.Ending} (keeps : ending.keepsWorker = true)
    (unawaited : s.state.awaits t = false) :
    s.settleExecution c t w ending = (s.endCall c).kill (some w) := by
  unfold settleExecution
  rw [if_pos keeps, State.checkIn_of_not_awaits unawaited]
  simp only [unawaited, Bool.false_eq_true, if_false]

/-- An execution that has lost its worker leaves the adapter without one, and a replacement is
ordered where the adapter has waited for it. -/
theorem settleExecution_of_lost {ending : Worker.Ending} (lost : ending.keepsWorker = false) :
    s.settleExecution c t w ending =
      { (({ s with state := (s.state.discard t).2 }).endCall c).kill (some w) with
        replacements := if s.state.awaits t then s.replacements + 1 else s.replacements } := by
  unfold settleExecution
  rw [if_neg (by simp [lost])]
  cases h : s.state.awaits t with
  | true =>
    rw [State.discard_of_awaits h]
    rfl
  | false =>
    rw [State.discard_of_not_awaits h]
    rfl

/-- However an execution is settled, its call is gone, and one worker is killed at most. -/
theorem settleExecution_cases (s : System) (c : CallId) (t : Ticket) (w : WorkerId)
    (ending : Worker.Ending) :
    ∃ state v n, s.settleExecution c t w ending =
      { (({ s with state }).endCall c).kill v with replacements := n } := by
  cases keeps : ending.keepsWorker with
  | true =>
    obtain ⟨v, settled⟩ := settleExecution_of_keeps (s := s) (c := c) (t := t) (w := w) keeps
    exact ⟨s.state.checkIn w t, v, s.replacements, settled⟩
  | false => exact ⟨_, some w, _, settleExecution_of_lost keeps⟩

/-- An execution begins with the worker of the adapter, or the call returns at once. -/
theorem execute_reply {code : String} {b : Budget} (taken : s.execute c code b = (s', r)) :
    (r = none ∧ s.state.phase = .ready ∧ ∃ w, s.state.worker = some w ∧
      s' = ({ s with state := (s.state.checkOut s.language).2 }).setCall c
        (.executing s.state.ticket w ⟨code, b⟩ none)) ∨
    ((∃ e, r = some (.executed (.error e))) ∧
      (s' = s ∨ (s.state.phase = .ready ∧ s.state.worker = none ∧
        s' = { s with state := (s.state.checkOut s.language).2 }))) := by
  unfold execute at taken
  split at taken
  · cases taken
    exact .inr ⟨⟨_, rfl⟩, .inl rfl⟩
  · by_cases ready : s.state.phase = .ready
    · cases hw : s.state.worker with
      | some w =>
        rw [State.checkOut_of_ready ready hw] at taken ⊢
        cases taken
        exact .inl ⟨rfl, ready, w, rfl, rfl⟩
      | none =>
        rw [State.checkOut_of_bare ready hw] at taken ⊢
        cases taken
        exact .inr ⟨⟨_, rfl⟩, .inr ⟨ready, rfl, rfl⟩⟩
    · by_cases executing : s.state.phase = .executing
      · rw [State.checkOut_of_executing executing] at taken
        cases taken
        exact .inr ⟨⟨_, rfl⟩, .inl rfl⟩
      · rw [State.checkOut_of_idle ready executing] at taken
        cases taken
        exact .inr ⟨⟨_, rfl⟩, .inl rfl⟩

/-- An execution is refused, or takes the worker of the adapter. -/
theorem execute_cases {code : String} {b : Budget} (taken : s.execute c code b = (s', r)) :
    s' = s ∨
    (s.state.phase = .ready ∧
      ((∃ w, s.state.worker = some w ∧
          s' = ({ s with state := (s.state.checkOut s.language).2 }).setCall c
            (.executing s.state.ticket w ⟨code, b⟩ none)) ∨
        (s.state.worker = none ∧ s' = { s with state := (s.state.checkOut s.language).2 }))) := by
  rcases execute_reply taken with ⟨-, ready, begun⟩ | ⟨-, same | ⟨ready, bare⟩⟩
  · exact .inr ⟨ready, .inl begun⟩
  · exact .inl same
  · exact .inr ⟨ready, .inr bare⟩

end

/-! ## Steps -/

/-- One step: every way in which a label fits. -/
inductive Step (s : System) : Label → System → Option Reply → Prop where
  | prepare {n s' r} (free : s.call? (.caller n) = none) (asked : s.ask (.caller n) = (s', r)) :
    Step s (.prepare n) s' r
  | replace {n s' r} (free : s.call? (.background n) = none) (ordered : s.replacements ≠ 0)
    (asked : ({ s with replacements := s.replacements - 1 }).ask (.background n) = (s', r)) :
    Step s (.replace n) s' r
  | queue {c o} (stands : s.call? c = some (.asking o)) :
    Step s (.queue c) ((s.setCall c (.waiting o)).lineUp c) none
  | enter {c o s' r} (stands : s.call? c = some (.waiting o)) (first : s.line.head? = some c)
    (taken : s.takeTurn c o = (s', r)) :
    Step s (.enter c) s' r
  | plan {n} (ordered : n ∈ s.orders) :
    Step s (.plan n) { s with orders := s.orders.erase n, starts := s.starts + 1 } none
  | wake {c k t} (stands : s.call? c = some k) (going : k.going? = some t)
    (wanted : s.state.isCancelled t = false) :
    Step s (.wake c) (s.wake c) none
  | rest {c k} (stands : s.call? c = some k) (going : k.going?.isSome = true)
    (awake : c ∈ s.awake) :
    Step s (.rest c) (s.rest c) none
  | launch {c t n} (stands : s.call? c = some (.planning t n)) (begun : n ∉ s.orders)
    (awake : c ∈ s.awake) :
    Step s (.launch c) (s.launch c t) none
  | listen {c t w u s'} (stands : s.call? c = some (.readying t w u)) (awake : c ∈ s.awake)
    (taken : s.listen c t w u = some s') :
    Step s (.listen c) s' none
  | fail {c e k t} (stands : s.call? c = some k) (starting : k.starting? = some t)
    (begun : k.isOrdered s.orders = false) (awake : c ∈ s.awake) :
    Step s (.fail c e) (s.failStart c k t e) none
  | stop {c k t} (stands : s.call? c = some k) (starting : k.starting? = some t)
    (cancelled : s.state.isCancelled t = true) :
    Step s (.stop c) (s.failStart c k t (State.overtaken s.language)) none
  | execute {n code b s' r} (free : s.call? (.caller n) = none)
    (taken : s.execute (.caller n) code (b.getD s.defaults) = (s', r)) :
    Step s (.execute n code b) s' r
  | send {c t w x s'} (stands : s.call? c = some (.executing t w x none)) (awake : c ∈ s.awake)
    (sent : s.send c t w x = some s') :
    Step s (.send c) s' none
  | receive {c t w x e s'} (stands : s.call? c = some (.executing t w x (some e)))
    (awake : c ∈ s.awake) (taken : s.receive c t w x e = some s') :
    Step s (.receive c) s' none
  | abandon {c t w x e ending} (stands : s.call? c = some (.executing t w x e))
    (may : s.mayEnd c t ending = true) :
    Step s (.abandon c ending) (s.abandon c t w x e ending) none
  | settleStart {c t q s' r} (stands : s.call? c = some (.started t q))
    (settled : s.settleStart c t q = (s', r)) :
    Step s (.settle c) s' r
  | settleExecution {c t w x e ending} (stands : s.call? c = some (.executed t w x e ending)) :
    Step s (.settle c) (s.settleExecution c t w ending)
      (some (.executed (.ok (ending.report x.budget (x.transcript e).output))))
  | terminate : Step s .terminate s.terminate none
  | drop {n k} (stands : s.call? (.caller n) = some k) (pending : k.isPending = true) :
    Step s (.drop n) (s.drop (.caller n) k) none
  | deliver {w m b} (known : s.desks[w]? = some b) :
    Step s (.deliver w m) (s.setDesk w (b.deliver m)) none

section
variable {s s' : System} {l : Label} {r : Option Reply}

/-- What the step function does is a step. -/
theorem Step.of_step (h : s.step l = some (s', r)) : Step s l s' r := by
  cases l with
  | prepare n =>
    simp only [step] at h
    split at h
    · cases h
    next hn =>
      exact .prepare (by simpa using hn) (Option.some.inj h)
  | replace n =>
    simp only [step] at h
    split at h
    · cases h
    next hn =>
      rw [not_or] at hn
      exact .replace (by simpa using hn.1) hn.2 (Option.some.inj h)
  | queue c =>
    simp only [step] at h
    split at h
    next o hk =>
      cases h
      exact .queue hk
    · cases h
  | enter c =>
    simp only [step] at h
    split at h
    next o hk =>
      split at h
      next first => exact .enter hk first (Option.some.inj h)
      · cases h
    · cases h
  | plan n =>
    simp only [step] at h
    split at h
    next ordered =>
      cases h
      exact .plan ordered
    · cases h
  | wake c =>
    simp only [step] at h
    split at h
    next k hk =>
      split at h
      next t ht =>
        split at h
        · cases h
        next wanted =>
          cases h
          exact .wake hk ht (by simpa using wanted)
      · cases h
    · cases h
  | rest c =>
    simp only [step] at h
    split at h
    next k hk =>
      split at h
      next hn =>
        cases h
        exact .rest hk hn.1 hn.2
      · cases h
    · cases h
  | launch c =>
    simp only [step] at h
    split at h
    next t n hk =>
      split at h
      · cases h
      next hn =>
        cases h
        rw [not_or, Classical.not_not] at hn
        exact .launch hk hn.1 hn.2
    · cases h
  | listen c =>
    simp only [step] at h
    split at h
    next t w u hk =>
      split at h
      next awake =>
        obtain ⟨s₁, taken, hs⟩ := Option.map_eq_some_iff.1 h
        cases hs
        exact .listen hk awake taken
      · cases h
    · cases h
  | fail c e =>
    simp only [step] at h
    split at h
    next k hk =>
      split at h
      next t ht =>
        split at h
        · cases h
        next hn =>
          cases h
          rw [not_or, Classical.not_not, Bool.not_eq_true] at hn
          exact .fail hk ht hn.1 hn.2
      · cases h
    · cases h
  | stop c =>
    simp only [step] at h
    split at h
    next k hk =>
      split at h
      next t ht =>
        split at h
        next cancelled =>
          cases h
          exact .stop hk ht cancelled
        · cases h
      · cases h
    · cases h
  | execute n code b =>
    simp only [step] at h
    split at h
    · cases h
    next hn =>
      exact .execute (by simpa using hn) (Option.some.inj h)
  | send c =>
    simp only [step] at h
    split at h
    next t w x hk =>
      split at h
      next awake =>
        obtain ⟨s₁, sent, hs⟩ := Option.map_eq_some_iff.1 h
        cases hs
        exact .send hk awake sent
      · cases h
    · cases h
  | receive c =>
    simp only [step] at h
    split at h
    next t w x e hk =>
      split at h
      next awake =>
        obtain ⟨s₁, taken, hs⟩ := Option.map_eq_some_iff.1 h
        cases hs
        exact .receive hk awake taken
      · cases h
    · cases h
  | abandon c ending =>
    simp only [step] at h
    split at h
    next t w x e hk =>
      split at h
      next may =>
        cases h
        exact .abandon hk may
      · cases h
    · cases h
  | settle c =>
    simp only [step] at h
    split at h
    next t q hk => exact .settleStart hk (Option.some.inj h)
    next t w x e ending hk =>
      cases h
      exact .settleExecution hk
    · cases h
  | terminate =>
    cases h
    exact .terminate
  | drop n =>
    simp only [step] at h
    split at h
    next k hk =>
      split at h
      next pending =>
        cases h
        exact .drop hk pending
      · cases h
    · cases h
  | deliver w m =>
    obtain ⟨b, known, hs⟩ := Option.map_eq_some_iff.1 h
    cases hs
    exact .deliver known

/-- Every step is what the step function does. -/
theorem Step.step_eq (h : Step s l s' r) : s.step l = some (s', r) := by
  cases h with
  | prepare free asked => simp [step, free, asked]
  | replace free ordered asked => simp [step, free, ordered, asked]
  | queue stands => simp [step, stands]
  | enter stands first taken => simp [step, stands, first, taken]
  | plan ordered => simp [step, ordered]
  | wake stands going wanted => simp [step, stands, going, wanted]
  | rest stands going awake => simp [step, stands, going, awake]
  | launch stands begun awake => simp [step, stands, begun, awake]
  | listen stands awake taken => simp [step, stands, awake, taken]
  | fail stands starting begun awake => simp [step, stands, starting, begun, awake]
  | stop stands starting cancelled => simp [step, stands, starting, cancelled]
  | execute free taken => simp [step, free, taken]
  | send stands awake sent => simp [step, stands, awake, sent]
  | receive stands awake taken => simp [step, stands, awake, taken]
  | abandon stands may => simp [step, stands, may]
  | settleStart stands settled => simp [step, stands, settled]
  | settleExecution stands => simp [step, stands]
  | terminate => rfl
  | drop stands pending => simp [step, stands, pending]
  | deliver known => simp [step, known]

/-- The step relation is the graph of the step function. -/
theorem step_eq_some_iff : s.step l = some (s', r) ↔ Step s l s' r := ⟨.of_step, fun h => h.step_eq⟩

/-- A caller whose execution begins has got the worker of the adapter. -/
theorem admitted_cases {n : Nat} {code : String} {b : Option Budget}
    (admitted : s.step (.execute n code b) = some (s', none)) :
    s.state.phase = .ready ∧ ∃ w, s.state.worker = some w ∧
      s' = ({ s with state := { s.state with phase := .executing, worker := none } }).setCall (.caller n)
        (.executing s.state.ticket w ⟨code, b.getD s.defaults⟩ none) := by
  cases Step.of_step admitted with
  | execute free taken =>
    obtain ⟨-, ready, w, slot, begun⟩ | ⟨⟨e, refused⟩, -⟩ := execute_reply taken
    · rw [State.checkOut_of_ready ready slot] at begun
      exact ⟨ready, w, slot, begun⟩
    · cases refused

end

/-! ## Who takes a step -/

/-- The call that takes the step with this label, if it is the step of a call. -/
def Label.by? : Label → Option CallId
  | .prepare n | .execute n _ _ | .drop n => some (.caller n)
  | .replace n => some (.background n)
  | .queue c | .enter c | .wake c | .rest c | .launch c | .listen c | .fail c _ | .stop c | .send c
  | .receive c | .abandon c _ | .settle c => some c
  | .plan _ | .terminate | .deliver _ _ => none

section
variable {s s' : System} {c : CallId} {l : Label} {r : Option Reply}

/-- The step of a call is taken where the call stands. -/
theorem same_of_stands {d : CallId} {k q : Call} (stands : s.call? c = some k)
    (mine : some d = some c) (hq : s.call? d = some q) : q = k ∧ d = c := by
  have same : d = c := Option.some.inj mine
  rw [same, stands] at hq
  exact ⟨(Option.some.inj hq).symm, same⟩

/-- A call that is there is not free. -/
theorem not_free_of_stands {d : CallId} {k : Call} (stands : s.call? c = some k)
    (mine : some d = some c) : s.call? d ≠ none := by
  rw [Option.some.inj mine, stands]
  exact Option.some_ne_none k

/-- A call stands where it stood when somebody else takes a step. -/
theorem Step.call?_eq (h : Step s l s' r) (other : l.by? ≠ some c) : s'.call? c = s.call? c := by
  have apart {d : CallId} (hd : some d ≠ some c) : c ≠ d := fun same => hd (congrArg some same.symm)
  cases h with
  | prepare free asked =>
    rcases ask_cases asked with ⟨-, rfl⟩ | ⟨-, rfl⟩
    · rfl
    · exact call?_setCall_of_ne _ _ (apart other)
  | replace free ordered asked =>
    rcases ask_cases asked with ⟨-, rfl⟩ | ⟨-, rfl⟩
    · rfl
    · exact call?_setCall_of_ne _ _ (apart other)
  | queue stands => exact call?_setCall_of_ne _ _ (apart other)
  | @enter d o s' r stands first taken =>
    have gone : (s.endCall d).call? c = s.call? c := by rw [call?_endCall, if_neg (apart other)]
    rcases takeTurn_cases taken with ⟨-, rfl⟩ | ⟨-, ⟨e, -, rfl⟩ | ⟨-, rfl⟩⟩
    · exact gone
    · exact gone
    · exact call?_setCall_of_ne _ _ (apart other)
  | plan ordered => rfl
  | wake stands going wanted => rfl
  | rest stands going awake => rfl
  | launch stands begun awake => exact call?_setCall_of_ne _ _ (apart other)
  | listen stands awake taken =>
    obtain ⟨b, m, ms, u, -, -, ⟨-, rfl⟩ | ⟨v, -, rfl⟩⟩ := listen_cases taken
    · exact call?_setCall_of_ne _ _ (apart other)
    · exact call?_setCall_of_ne _ _ (apart other)
  | fail stands starting begun awake => exact call?_setCall_of_ne _ _ (apart other)
  | stop stands starting cancelled => exact call?_setCall_of_ne _ _ (apart other)
  | execute free taken =>
    rcases execute_cases taken with rfl | ⟨-, ⟨w, -, rfl⟩ | ⟨-, rfl⟩⟩
    · rfl
    · exact call?_setCall_of_ne _ _ (apart other)
    · rfl
  | send stands awake sent =>
    obtain ⟨b, -, rfl⟩ := send_cases sent
    exact call?_setCall_of_ne _ _ (apart other)
  | receive stands awake taken =>
    obtain ⟨b, m, ms, e, -, -, ⟨-, rfl⟩ | ⟨fault, -, rfl⟩⟩ := receive_cases taken
    · exact call?_setCall_of_ne _ _ (apart other)
    · exact call?_setCall_of_ne _ _ (apart other)
  | abandon stands may => exact call?_setCall_of_ne _ _ (apart other)
  | settleStart stands settled =>
    obtain ⟨v, rfl⟩ := settleStart_cases settled
    rw [call?_kill, call?_endCall, if_neg (apart other)]
    rfl
  | @settleExecution d t w x e ending stands =>
    obtain ⟨state, v, n, settled⟩ := s.settleExecution_cases d t w ending
    rw [settled]
    exact (call?_endCall { s with state } d c).trans (if_neg (apart other))
  | terminate => rfl
  | drop stands pending => rw [System.drop, call?_kill, call?_endCall, if_neg (apart other)]
  | deliver known => rfl

/-- Only a call itself wakes and rests. -/
theorem Step.mem_awake_iff (h : Step s l s' r) (other : l.by? ≠ some c) :
    c ∈ s'.awake ↔ c ∈ s.awake := by
  have apart {d : CallId} (hd : some d ≠ some c) : c ≠ d := fun same => hd (congrArg some same.symm)
  -- another call may go, and a worker be killed with it
  have gone {d : CallId} {s₁ : System} {v : Option WorkerId} (hd : some d ≠ some c)
      (same : s₁.awake = s.awake) : c ∈ ((s₁.endCall d).kill v).awake ↔ c ∈ s.awake := by
    show c ∈ (s₁.endCall d).awake ↔ _
    rw [mem_awake_endCall, same]
    exact and_iff_left (apart hd)
  cases h with
  | prepare free asked => rcases ask_cases asked with ⟨-, rfl⟩ | ⟨-, rfl⟩ <;> rfl
  | replace free ordered asked => rcases ask_cases asked with ⟨-, rfl⟩ | ⟨-, rfl⟩ <;> rfl
  | enter stands first taken =>
    rcases takeTurn_cases taken with ⟨-, rfl⟩ | ⟨-, ⟨e, -, rfl⟩ | ⟨-, rfl⟩⟩
    · exact gone (v := none) other rfl
    · exact gone (v := none) other rfl
    · rfl
  | wake stands going wanted =>
    rw [mem_awake_wake]
    exact or_iff_right (apart other)
  | rest stands going awake =>
    rw [mem_awake_rest]
    exact and_iff_left (apart other)
  | listen stands awake taken =>
    obtain ⟨b, m, ms, u, -, -, ⟨-, rfl⟩ | ⟨v, -, rfl⟩⟩ := listen_cases taken <;> rfl
  | execute free taken =>
    rcases execute_cases taken with rfl | ⟨-, ⟨w, -, rfl⟩ | ⟨-, rfl⟩⟩ <;> rfl
  | send stands awake sent =>
    obtain ⟨b, -, rfl⟩ := send_cases sent
    rfl
  | receive stands awake taken =>
    obtain ⟨b, m, ms, e, -, -, ⟨-, rfl⟩ | ⟨fault, -, rfl⟩⟩ := receive_cases taken <;> rfl
  | settleStart stands settled =>
    obtain ⟨v, rfl⟩ := settleStart_cases settled
    exact gone other rfl
  | @settleExecution d t w x e ending stands =>
    obtain ⟨state, v, n, settled⟩ := s.settleExecution_cases d t w ending
    rw [settled]
    show c ∈ ((({ s with state } : System).endCall d).kill v).awake ↔ _
    exact gone other rfl
  | drop stands pending => exact gone other rfl
  | queue | plan | launch | fail | stop | abandon | terminate | deliver => rfl

/-- Every step leaves the language and the usual budget as they are. -/
theorem Step.constants (h : Step s l s' r) :
    s'.language = s.language ∧ s'.defaults = s.defaults := by
  cases h with
  | prepare free asked => rcases ask_cases asked with ⟨-, rfl⟩ | ⟨-, rfl⟩ <;> exact ⟨rfl, rfl⟩
  | replace free ordered asked =>
    rcases ask_cases asked with ⟨-, rfl⟩ | ⟨-, rfl⟩ <;> exact ⟨rfl, rfl⟩
  | enter stands first taken =>
    rcases takeTurn_cases taken with ⟨-, rfl⟩ | ⟨-, ⟨e, -, rfl⟩ | ⟨-, rfl⟩⟩ <;> exact ⟨rfl, rfl⟩
  | listen stands awake taken =>
    obtain ⟨b, m, ms, u, -, -, ⟨-, rfl⟩ | ⟨v, -, rfl⟩⟩ := listen_cases taken <;> exact ⟨rfl, rfl⟩
  | execute free taken =>
    rcases execute_cases taken with rfl | ⟨-, ⟨w, -, rfl⟩ | ⟨-, rfl⟩⟩ <;> exact ⟨rfl, rfl⟩
  | send stands awake sent =>
    obtain ⟨b, -, rfl⟩ := send_cases sent
    exact ⟨rfl, rfl⟩
  | receive stands awake taken =>
    obtain ⟨b, m, ms, e, -, -, ⟨-, rfl⟩ | ⟨fault, -, rfl⟩⟩ := receive_cases taken <;>
      exact ⟨rfl, rfl⟩
  | settleStart stands settled =>
    obtain ⟨v, rfl⟩ := settleStart_cases settled
    exact ⟨rfl, rfl⟩
  | @settleExecution c t w x e ending stands =>
    obtain ⟨state, v, n, settled⟩ := s.settleExecution_cases c t w ending
    rw [settled]
    exact ⟨rfl, rfl⟩
  | queue | plan | wake | rest | launch | fail | stop | abandon | terminate | drop | deliver =>
    exact ⟨rfl, rfl⟩

theorem Step.language (h : Step s l s' r) : s'.language = s.language := h.constants.1

theorem Step.defaults (h : Step s l s' r) : s'.defaults = s.defaults := h.constants.2

end

/-! ## Runs -/

/-- A run: some steps, one after the other, whose labels are all allowed. -/
inductive Runs (allowed : Label → Prop) (s : System) : System → Prop where
  | refl : Runs allowed s s
  | next {s₁ s₂ l r} (run : Runs allowed s s₁) (ok : allowed l)
    (step : s₁.step l = some (s₂, r)) : Runs allowed s s₂

namespace Runs

variable {allowed : Label → Prop} {s s' s₁ s₂ : System} {l : Label} {r : Option Reply}

/-- What every allowed step keeps is kept by a run. -/
theorem keeps {P : System → Prop} (h : Runs allowed s s')
    (keep : ∀ s l s' r, allowed l → P s → Step s l s' r → P s') (start : P s) : P s' := by
  induction h with
  | refl => exact start
  | next _ ok step ih => exact keep _ _ _ _ ok ih (.of_step step)

/-- One run after another. -/
theorem trans (h₁ : Runs allowed s s₁) (h₂ : Runs allowed s₁ s₂) : Runs allowed s s₂ := by
  induction h₂ with
  | refl => exact h₁
  | next _ ok step ih => exact ih.next ok step

/-- A run with labels of which others are allowed too. -/
theorem mono {allowed' : Label → Prop} (h : Runs allowed s s') (more : ∀ l, allowed l → allowed' l) :
    Runs allowed' s s' := by
  induction h with
  | refl => exact .refl
  | next _ ok step ih => exact ih.next (more _ ok) step

/-- A run of a single step. -/
theorem single (ok : allowed l) (h : Step s l s' r) : Runs allowed s s' := .next .refl ok h.step_eq

end Runs

/-- Takes steps by these labels, one after the other. -/
def follow (s : System) : List Label → Option System
  | [] => some s
  | l :: ls => do
    let (s, _) ← s.step l
    s.follow ls

/-- Following labels that are allowed is a run. -/
theorem Runs.of_follow {allowed : Label → Prop} {s s' : System} {ls : List Label}
    (h : s.follow ls = some s') (ok : ∀ l ∈ ls, allowed l) : Runs allowed s s' := by
  induction ls generalizing s with
  | nil =>
    cases h
    exact .refl
  | cons l ls ih =>
    obtain ⟨⟨s₁, r⟩, hstep, hrest⟩ := Option.bind_eq_some_iff.1 h
    have first : Runs allowed s s₁ := .next .refl (ok l List.mem_cons_self) hstep
    exact first.trans (ih hrest fun l hl => ok l (List.mem_cons_of_mem _ hl))

end SnippetRunner.Adapter.System
