import SnippetRunner.Proofs.Adapter.Joining
import SnippetRunner.Proofs.Snippet.Soundness

/-!
# What executions return

Every report that a call returns is sound under the budget that the call was made with, whatever its
worker has sent and whatever else has happened. What the report says of success and of a fault goes
back to something that has happened: an event of the worker that the request is done, or another end
that the execution has come to. The invariant says so of every execution under way, by the steps that
have been taken.
-/

namespace SnippetRunner.Adapter.System

open SnippetRunner.Worker (Message Ending Execution)

variable {s s' : System} {c : CallId} {k : Call} {l : Label} {r : Option Reply} {h : List Event}
  {w : WorkerId} {m : Message} {n : Nat} {defaults : Budget}

/-! ## Histories of executions -/

/-- What a caller wants to have executed, and under which budget, if the step is that of such a call
which does not return at once. -/
def Event.order? (n : Nat) : Event → Option (String × Option Budget)
  | ⟨.execute i code b, none⟩ => if i = n then some (code, b) else none
  | _ => none

/-- What a caller has wanted to have executed last. -/
def lastOrder? (n : Nat) (h : List Event) : Option (String × Option Budget) :=
  (h.filterMap (Event.order? n)).getLast?

/-- A message has arrived from a worker. -/
def Arrived (h : List Event) (w : WorkerId) (m : Message) : Prop := ⟨.deliver w m, none⟩ ∈ h

theorem lastOrder?_concat (n : Nat) (h : List Event) (e : Event) :
    lastOrder? n (h ++ [e]) = (e.order? n).or (lastOrder? n h) := by
  unfold lastOrder?
  rw [List.filterMap_append, List.getLast?_append]
  cases order : e.order? n <;> simp [order]

/-- Only the step of a caller is an order of its own. -/
theorem Event.order?_eq_none (other : l.by? ≠ some (.caller n)) : Event.order? n ⟨l, r⟩ = none := by
  cases l with
  | execute i code b =>
    have apart : i ≠ n := fun same => other (by rw [same]; rfl)
    cases r <;> simp [order?, apart]
  | _ => rfl

theorem Arrived.mono (arrived : Arrived h w m) (e : Event) : Arrived (h ++ [e]) w m :=
  List.mem_append_left _ arrived

/-! ## Executions under way -/

/-- An execution is that of the last order of its caller, and what is kept of its output keeps to the
budget of the order. -/
structure Ordered (defaults : Budget) (h : List Event) (c : CallId) (x : Errand)
    (e : Option Execution) : Prop where
  order : ∃ n b, c = .caller n ∧ lastOrder? n h = some (x.code, b) ∧ x.budget = b.getD defaults
  valid : x.budget.validate = .ok ()
  within : (x.transcript e).Within x.budget

/-- An execution has come to this end: its worker has said that its request is done, with this fault
or without, or the call has come to another end. -/
def Caused (h : List Event) (c : CallId) (w : WorkerId) (e : Option Execution) : Ending → Prop
  | .done fault =>
    ∃ e' raw, e = some e' ∧ Arrived h w (.event (.done e'.id raw)) ∧
      fault = raw.map Wire.RawFault.fault
  | ending => ⟨.abandon c ending, none⟩ ∈ h

/-- An execution goes back to what has happened, and so does its end. -/
def Accounted (defaults : Budget) (h : List Event) (c : CallId) : Call → Prop
  | .executing _ _ x e => Ordered defaults h c x e
  | .executed _ w x e ending => Ordered defaults h c x e ∧ Caused h c w e ending
  | _ => True

theorem Caused.mono {e : Option Execution} {ending : Ending} (caused : Caused h c w e ending)
    (event : Event) : Caused (h ++ [event]) c w e ending := by
  cases ending with
  | done fault =>
    obtain ⟨e', raw, sent, arrived, same⟩ := caused
    exact ⟨e', raw, sent, arrived.mono event, same⟩
  | lost | terminated | outOfTime => exact List.mem_append_left _ caused

/-- A step that is no order of the caller leaves the order as it is. -/
theorem Ordered.mono {x : Errand} {e : Option Execution} {event : Event}
    (ordered : Ordered defaults h c x e) (other : ∀ n, c = .caller n → event.order? n = none) :
    Ordered defaults (h ++ [event]) c x e := by
  obtain ⟨⟨n, b, rfl, order, budget⟩, valid, within⟩ := ordered
  refine ⟨⟨n, b, rfl, ?_, budget⟩, valid, within⟩
  rw [lastOrder?_concat, other n rfl, Option.none_or, order]

/-- The execution goes on with other output that keeps to its budget. -/
theorem Ordered.goesOn {x : Errand} {e e' : Option Execution} (ordered : Ordered defaults h c x e)
    (within : (x.transcript e').Within x.budget) : Ordered defaults h c x e' :=
  ⟨ordered.order, ordered.valid, within⟩

/-- A step that is no order of the caller leaves the call accounted for where it stands. -/
theorem Accounted.mono_of_not_order {event : Event} (accounted : Accounted defaults h c k)
    (noOrder : ∀ n, c = .caller n → event.order? n = none) :
    Accounted defaults (h ++ [event]) c k := by
  cases k with
  | executing => exact Ordered.mono accounted noOrder
  | executed => exact ⟨accounted.1.mono noOrder, accounted.2.mono _⟩
  | asking | waiting | planning | readying | started => trivial

theorem Accounted.mono (accounted : Accounted defaults h c k) (other : l.by? ≠ some c) :
    Accounted defaults (h ++ [⟨l, r⟩]) c k := by
  apply accounted.mono_of_not_order
  rintro n rfl
  exact Event.order?_eq_none other

/-! ## Messages -/

/-- Every message that nobody has taken has arrived from its worker. -/
def Delivered (h : List Event) (s : System) : Prop :=
  ∀ w b, s.desks[w]? = some b → ∀ m ∈ b.messages, Arrived h w m

namespace Delivered

variable {b : Worker.Desk}

theorem of_desks_eq (all : Delivered h s) (same : s'.desks = s.desks) : Delivered h s' := by
  intro w b known
  exact all w b (same ▸ known)

theorem mono (all : Delivered h s) (e : Event) : Delivered (h ++ [e]) s :=
  fun w b known m inside => (all w b known m inside).mono e

/-- The desk of one worker changes, and what it holds has arrived. -/
theorem setDesk (all : Delivered h s) (arrived : ∀ m ∈ b.messages, Arrived h w m) :
    Delivered h (s.setDesk w b) := by
  intro v d known m inside
  have known : (s.desks.set w b)[v]? = some d := known
  by_cases same : w = v
  · obtain rfl := same
    have there : w < s.desks.length := by
      rw [← List.length_set]
      exact (List.getElem?_eq_some_iff.1 known).1
    rw [List.getElem?_set_self there] at known
    exact arrived m (Option.some.inj known ▸ inside)
  · rw [List.getElem?_set_ne same] at known
    exact all v d known m inside

end Delivered

/-- A step hands on what has arrived, or something arrives with it. -/
theorem Step.delivered (step : Step s l s' r) (all : Delivered h s) :
    Delivered (h ++ [⟨l, r⟩]) s' := by
  have before := all.mono ⟨l, r⟩
  cases step with
  | prepare free asked =>
    rcases ask_cases asked with ⟨-, rfl⟩ | ⟨-, rfl⟩
    · exact before
    · exact before.of_desks_eq rfl
  | replace free ordered asked =>
    rcases ask_cases asked with ⟨-, rfl⟩ | ⟨-, rfl⟩ <;> exact before.of_desks_eq rfl
  | enter stands first taken =>
    rcases takeTurn_cases taken with ⟨-, rfl⟩ | ⟨-, ⟨e, -, rfl⟩ | ⟨-, rfl⟩⟩ <;>
      exact before.of_desks_eq rfl
  | launch stands begun awake =>
    intro w b known m inside
    have known : (s.desks ++ [Worker.Desk.start])[w]? = some b := known
    rcases List.mem_append.1 (List.mem_of_getElem? known) with old | new
    · -- the new worker has the last number, so an old desk keeps its own
      rw [List.getElem?_append] at known
      split at known
      · exact before w b known m inside
      next beyond =>
        have is := List.mem_singleton.1 (List.mem_of_getElem? known)
        rw [is] at inside
        cases inside
    · rw [List.mem_singleton.1 new] at inside
      cases inside
  | listen stands awake taken =>
    obtain ⟨b, m, ms, u, known, messages, rest⟩ := listen_cases taken
    have fewer : ∀ m' ∈ ms, Arrived (h ++ [_]) _ m' := fun m' inside =>
      before _ b known m' (messages ▸ List.mem_cons_of_mem m inside)
    rcases rest with ⟨-, rfl⟩ | ⟨v, -, rfl⟩
    · exact (before.setDesk (b := { b with messages := ms }) fewer).of_desks_eq rfl
    · exact (before.setDesk (b := { b with messages := ms }) fewer).of_desks_eq rfl
  | execute free taken =>
    rcases execute_cases taken with rfl | ⟨-, ⟨w, -, rfl⟩ | ⟨-, rfl⟩⟩ <;>
      exact before.of_desks_eq rfl
  | send stands awake sent =>
    obtain ⟨b, known, rfl⟩ := send_cases sent
    exact (before.setDesk (b := (b.send _ _).2) fun m inside => before _ b known m inside).of_desks_eq
      rfl
  | receive stands awake taken =>
    obtain ⟨b, m, ms, e, known, messages, rest⟩ := receive_cases taken
    rcases rest with ⟨-, rfl⟩ | ⟨fault, -, rfl⟩
    · have fewer : ∀ m' ∈ ms, Arrived (h ++ [_]) _ m' := fun m' inside =>
        before _ b known m' (messages ▸ List.mem_cons_of_mem m inside)
      exact (before.setDesk (b := { b with messages := ms }) fewer).of_desks_eq rfl
    · exact (before.setDesk (b := { b with messages := [] }) fun m' inside => by
        cases inside).of_desks_eq rfl
  | settleStart stands settled =>
    obtain ⟨v, rfl⟩ := settleStart_cases settled
    exact before.of_desks_eq rfl
  | @settleExecution c t w x e ending stands =>
    obtain ⟨state, v, n, settled⟩ := s.settleExecution_cases c t w ending
    rw [settled]
    exact before.of_desks_eq rfl
  | @deliver w m b known =>
    refine before.setDesk fun m' inside => ?_
    rcases List.mem_append.1 inside with old | new
    · exact before w b known m' old
    · rw [List.mem_singleton.1 new]
      exact List.mem_append_right _ (List.mem_singleton_self _)
  | queue | plan | wake | rest | fail | stop | abandon | terminate | drop =>
    exact before.of_desks_eq rfl

/-! ## Steps -/

/-- An execution begins only under a budget that is valid. -/
theorem validate_of_execute {code : String} {b : Budget} (taken : s.execute c code b = (s', none)) :
    b.validate = .ok () := by
  unfold execute at taken
  split at taken
  · cases taken
  next valid => exact valid

/-- Every execution under way goes back to what has happened. -/
def AllAccounted (defaults : Budget) (h : List Event) (s : System) : Prop :=
  ∀ c k, s.call? c = some k → Accounted defaults h c k

/-- An execution that begins is that of the order which it begins with. -/
theorem accounted_of_execute {code : String} {b : Option Budget} (usual : s.defaults = defaults)
    (free : s.call? (.caller n) = none)
    (taken : s.execute (.caller n) code (b.getD s.defaults) = (s', r))
    (stands : s'.call? (.caller n) = some k) :
    Accounted defaults (h ++ [⟨.execute n code b, r⟩]) (.caller n) k := by
  -- a call that returns at once leaves nothing behind
  have refused {s₁ : System} (same : s₁.call? (.caller n) = s.call? (.caller n))
      (there : s₁.call? (.caller n) = some k) :
      Accounted defaults (h ++ [⟨.execute n code b, r⟩]) (.caller n) k := by
    rw [same, free] at there
    cases there
  rcases execute_reply taken with ⟨rfl, -, w, -, rfl⟩ | ⟨-, rfl | ⟨-, -, rfl⟩⟩
  · rw [call?_setCall_self] at stands
    obtain rfl := Option.some.inj stands
    have order : Event.order? n ⟨.execute n code b, none⟩ = some (code, b) := if_pos rfl
    refine ⟨⟨n, b, rfl, ?_, by rw [usual]⟩, validate_of_execute taken, Transcript.within_ofBudget _⟩
    rw [lastOrder?_concat, order]
    rfl
  · exact refused rfl stands
  · exact refused rfl stands

/-- An execution goes on with a message, or comes to the end that the message tells of. -/
theorem accounted_of_receive {t : Ticket} {x : Errand} {e : Execution}
    (ordered : Ordered defaults h c x (some e)) (all : Delivered h s)
    (taken : s.receive c t w x e = some s') (stands : s'.call? c = some k) :
    Accounted defaults (h ++ [⟨.receive c, none⟩]) c k := by
  have later : Ordered defaults (h ++ [⟨.receive c, none⟩]) c x (some e) :=
    ordered.mono fun _ _ => rfl
  obtain ⟨b, m, ms, e', known, messages, ⟨took, rfl⟩ | ⟨fault, took, rfl⟩⟩ := receive_cases taken
  · rw [call?_setCall_self] at stands
    obtain rfl := Option.some.inj stands
    exact later.goesOn (Execution.within_receive ordered.within took)
  · rw [call?_setCall_self] at stands
    obtain rfl := Option.some.inj stands
    have written := Execution.within_receive ordered.within took
    obtain ⟨raw, rfl, rfl, same⟩ := Execution.exists_done_of_receive took
    have arrived : Arrived h w (.event (.done e'.id raw)) :=
      all w b known _ (messages ▸ List.mem_cons_self ..)
    refine ⟨later.goesOn (Execution.within_drain written ms), e'.drain ms, raw, rfl, ?_, same⟩
    rw [Execution.id_drain]
    exact arrived.mono _

/-- A step keeps it so. -/
theorem Step.accounted (step : Step s l s' r) (usual : s.defaults = defaults) (all : Delivered h s)
    (calls : AllAccounted defaults h s) : AllAccounted defaults (h ++ [⟨l, r⟩]) s' := by
  intro d k stands'
  by_cases mine : l.by? = some d
  case neg =>
    rw [step.call?_eq mine] at stands'
    exact (calls d k stands').mono mine
  -- the call that takes the step: it has a new place, or the one it had, or it is gone
  have placed {q : Call} {s₁ : System} (there : (s₁.setCall d q).call? d = some k)
      (accounted : Accounted defaults (h ++ [⟨l, r⟩]) d q) :
      Accounted defaults (h ++ [⟨l, r⟩]) d k := by
    rw [call?_setCall_self] at there
    exact Option.some.inj there ▸ accounted
  have stays (other : ∀ n, d = .caller n → Event.order? n ⟨l, r⟩ = none) (there : s.call? d = some k) :
      Accounted defaults (h ++ [⟨l, r⟩]) d k := (calls d k there).mono_of_not_order other
  have gone {s₁ : System} (free : s₁.call? d = none) (there : s₁.call? d = some k) :
      Accounted defaults (h ++ [⟨l, r⟩]) d k := by
    rw [free] at there
    cases there
  have ended {s₁ : System} (there : (s₁.endCall d).call? d = some k) :
      Accounted defaults (h ++ [⟨l, r⟩]) d k :=
    gone (by rw [call?_endCall, if_pos rfl]) there
  cases step with
  | prepare free asked =>
    obtain rfl := Option.some.inj mine
    rcases ask_cases asked with ⟨-, rfl⟩ | ⟨-, rfl⟩
    · exact gone free stands'
    · exact placed stands' trivial
  | replace free ordered asked =>
    obtain rfl := Option.some.inj mine
    rcases ask_cases asked with ⟨-, rfl⟩ | ⟨-, rfl⟩
    · exact gone free stands'
    · exact placed stands' trivial
  | queue stands =>
    obtain rfl := Option.some.inj mine
    exact placed stands' trivial
  | enter stands first taken =>
    obtain rfl := Option.some.inj mine
    rcases takeTurn_cases taken with ⟨-, rfl⟩ | ⟨-, ⟨e, -, rfl⟩ | ⟨-, rfl⟩⟩
    · exact ended stands'
    · exact ended stands'
    · exact placed stands' trivial
  | wake | rest =>
    obtain rfl := Option.some.inj mine
    exact stays (fun _ _ => rfl) stands'
  | launch stands begun awake =>
    obtain rfl := Option.some.inj mine
    exact placed stands' trivial
  | listen stands awake taken =>
    obtain rfl := Option.some.inj mine
    obtain ⟨b, m, ms, u, -, -, ⟨-, rfl⟩ | ⟨v, -, rfl⟩⟩ := listen_cases taken
    · exact placed stands' trivial
    · exact placed stands' trivial
  | fail | stop =>
    obtain rfl := Option.some.inj mine
    exact placed stands' trivial
  | execute free taken =>
    obtain rfl := Option.some.inj mine
    exact accounted_of_execute usual free taken stands'
  | send stands awake sent =>
    obtain rfl := Option.some.inj mine
    obtain ⟨b, -, rfl⟩ := send_cases sent
    have ordered : Ordered defaults h _ _ _ := calls _ _ stands
    exact placed stands' ((ordered.mono fun _ _ => rfl).goesOn (Transcript.within_ofBudget _))
  | receive stands awake taken =>
    obtain rfl := Option.some.inj mine
    exact accounted_of_receive (calls _ _ stands) all taken stands'
  | @abandon c t w x e ending stands may =>
    obtain rfl := Option.some.inj mine
    have ordered : Ordered defaults h c x e := calls _ _ stands
    refine placed stands' ⟨ordered.mono fun _ _ => rfl, ?_⟩
    cases ending with
    | done fault => cases may
    | lost | terminated | outOfTime => exact List.mem_append_right _ (List.mem_singleton_self _)
  | settleStart stands settled =>
    obtain rfl := Option.some.inj mine
    obtain ⟨v, rfl⟩ := settleStart_cases settled
    exact ended stands'
  | @settleExecution c t w x e ending stands =>
    obtain rfl := Option.some.inj mine
    obtain ⟨state, v, n, settled⟩ := s.settleExecution_cases c t w ending
    rw [settled] at stands'
    exact ended stands'
  | drop stands pending =>
    obtain rfl := Option.some.inj mine
    exact ended stands'
  | plan | terminate | deliver => cases mine

/-! ## Runs -/

/-- Along a run every message has arrived from its worker, and every execution goes back to what has
happened. -/
theorem Traces.accounted {language : String} (run : Traces (new language defaults) h s) :
    s.defaults = defaults ∧ Delivered h s ∧ AllAccounted defaults h s := by
  generalize start : new language defaults = s₀ at run
  induction run with
  | refl =>
    obtain rfl := start
    refine ⟨rfl, fun w b known => ?_, fun c k stands => ?_⟩
    · cases known
    · cases stands
  | next run step ih =>
    obtain ⟨usual, arrived, calls⟩ := ih
    have step := Step.of_step step
    exact ⟨step.defaults.trans usual, step.delivered arrived, step.accounted usual arrived calls⟩

/-- Why the report on an execution of a worker says what it does of success and of a fault. -/
inductive Reason (h : List Event) (c : CallId) (w : WorkerId) (e : Option Execution) (q : Report) :
    Prop where
  /-- The worker has said that the request of the execution is done, without a fault. Whether output
  was cut is not asked. -/
  | completed (e' : Execution) (sent : e = some e')
      (arrived : Arrived h w (.event (.done e'.id none)))
      (success : q.success = true) (fault : q.fault = none)
  /-- The worker has said that the request of the execution is done and reported this; its numbers are
  in the report if they are lines and columns. -/
  | faulted (e' : Execution) (raw : Wire.RawFault) (f : Fault) (sent : e = some e')
      (arrived : Arrived h w (.event (.done e'.id (some raw)))) (success : q.success = false)
      (fault : q.fault = some f)
      (line : ∀ n : Nat, f.line = some n ↔ raw.line = some (n : Int) ∧ 1 ≤ n ∧ n < Nat.pow 2 32)
      (column : ∀ n : Nat, f.column = some n ↔ raw.column = some (n : Int) ∧ 1 ≤ n ∧ n < Nat.pow 2 32)
      (inTime : q.timedOut = false)
  /-- The execution has come to another end, which has no position. -/
  | stopped (ending : Ending) (f : Fault) (stopped : ⟨.abandon c ending, none⟩ ∈ h)
      (success : q.success = false) (fault : q.fault = some f) (line : f.line = none)
      (column : f.column = none) (late : q.timedOut = true ↔ ending = .outOfTime)

/-- The report on an execution that has come to its end has such a reason. -/
theorem reason_of_caused {e : Option Execution} {ending : Ending} {b : Budget} {output : Output}
    (caused : Caused h c w e ending) : Reason h c w e (ending.report b output) := by
  cases ending with
  | done fault =>
    obtain ⟨e', raw, sent, arrived, rfl⟩ := caused
    cases raw with
    | none => exact .completed e' sent arrived rfl rfl
    | some raw =>
      exact .faulted e' raw raw.fault sent arrived rfl rfl
        (fun _ => Wire.RawFault.line_fault_eq_some_iff)
        (fun _ => Wire.RawFault.column_fault_eq_some_iff) rfl
  | lost detail => exact .stopped _ _ caused rfl rfl rfl rfl ⟨nofun, nofun⟩
  | terminated => exact .stopped _ _ caused rfl rfl rfl rfl ⟨nofun, nofun⟩
  | outOfTime => exact .stopped _ _ caused rfl rfl rfl rfl ⟨fun _ => rfl, fun _ => rfl⟩

/-- A report comes only from a call whose execution has come to its end. -/
theorem executed_of_reply {q : Report} (step : Step s l s' (some (.executed (.ok q)))) :
    ∃ c t w x e ending, l = .settle c ∧ s.call? c = some (.executed t w x e ending) ∧
      q = Ending.report ending x.budget (x.transcript e).output := by
  generalize reply : some (Reply.executed (.ok q)) = r at step
  cases step with
  | prepare free asked =>
    unfold ask at asked
    split at asked <;> cases asked <;> cases reply
  | replace free ordered asked =>
    unfold ask at asked
    split at asked <;> cases asked <;> cases reply
  | enter stands first taken =>
    unfold takeTurn at taken
    split at taken <;> cases taken <;> cases reply
  | execute free taken =>
    rcases execute_reply taken with ⟨rfl, -⟩ | ⟨⟨e, rfl⟩, -⟩ <;> cases reply
  | settleStart stands settled =>
    obtain rfl := settleStart_reply settled
    cases reply
  | @settleExecution c t w x e ending stands =>
    cases reply
    exact ⟨c, t, w, x, e, ending, rfl, stands, rfl⟩
  | queue | plan | wake | rest | launch | listen | fail | stop | send | receive | abandon | terminate
  | drop | deliver => cases reply

/-- Every report that a call returns is sound. It is one of a caller, on what the caller has wanted to
have executed last; the budget of that call is valid, the report keeps to it, and what it says of
success and of a fault has a reason in what has happened: what the worker of the call has said of its
request, or another end of the call. -/
theorem sound_of_traces {language : String} {q : Report} (run : Traces (new language defaults) h s)
    (returned : s.step l = some (s', some (.executed (.ok q)))) :
    ∃ n b t w x e ending, l = .settle (.caller n) ∧
      s.call? (.caller n) = some (.executed t w x e ending) ∧ lastOrder? n h = some (x.code, b) ∧
      (b.getD defaults).validate = .ok () ∧ q.IsSound (b.getD defaults) ∧
      Reason h (.caller n) w e q := by
  obtain ⟨-, -, calls⟩ := run.accounted
  obtain ⟨c, t, w, x, e, ending, rfl, stands, rfl⟩ := executed_of_reply (.of_step returned)
  obtain ⟨⟨⟨n, b, rfl, order, budget⟩, valid, within⟩, caused⟩ := calls c _ stands
  have sound : ∀ f, ending = .done (some f) → f.IsSound := by
    rintro f rfl
    obtain ⟨-, raw, -, -, same⟩ := caused
    cases raw with
    | none => cases same
    | some raw => exact Option.some.inj same ▸ raw.isSound_fault
  rw [budget] at valid within
  refine ⟨n, b, t, w, x, e, ending, rfl, stands, order, valid, ?_, reason_of_caused caused⟩
  rw [budget]
  exact Report.isSound_report within sound

/-- A worker that writes more than is kept, and reports a fault without a message, with an empty kind
and with a line beyond 32 bits. -/
def overflowing : List Label :=
  [.prepare 0, .queue (.caller 0), .enter (.caller 0), .plan 1, .wake (.caller 0), .launch (.caller 0),
    .deliver 0 (.event (.ready "5.4")), .listen (.caller 0), .settle (.caller 0),
    .execute 1 "one" (some ⟨.ofMillis 100, 1, 2⟩), .wake (.caller 1), .send (.caller 1),
    .deliver 0 (.event (.output .stdout 1 "abc")),
    .deliver 0 (.event (.done 1 (some ⟨"", some "", some 4294967297, some 7⟩))),
    .receive (.caller 1), .receive (.caller 1)]

/-- The report keeps two bytes, and of the fault no kind and no line, where 1 would be what remains of
the number. -/
theorem sound_of_traces_overflowing : ∃ s h s' q,
    (new "lua" .standard).trace overflowing = some (h, s) ∧
    s.step (.settle (.caller 1)) = some (s', some (.executed (.ok q))) ∧
    q = ⟨false, "ab", "", some ⟨"unknown error", none, none, some 7⟩, .zero, false, true⟩ ∧
    ∃ n b t w x e ending, Label.settle (.caller 1) = .settle (.caller n) ∧
      s.call? (.caller n) = some (.executed t w x e ending) ∧ lastOrder? n h = some (x.code, b) ∧
      (b.getD .standard).validate = .ok () ∧ q.IsSound (b.getD .standard) ∧
      Reason h (.caller n) w e q := by
  refine ⟨_, _, _, _, rfl, rfl, ?_, ?_⟩
  · decide
  · exact sound_of_traces (@Traces.of_trace (new "lua" .standard) _ overflowing _ rfl) rfl

end SnippetRunner.Adapter.System
