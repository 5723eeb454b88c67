import SnippetRunner.Proofs.Adapter.Representation
import SnippetRunner.Proofs.Adapter.Termination
import SnippetRunner.Proofs.Adapter.Workers

/-!
# Calls that come while a start goes on

A call that comes while another one starts a worker waits until that start has come to its end. Whether
it shares the outcome depends on what it has seen: the start has been counted when the call
asks, so that a failure of this start is none that has begun since. A failure is shared only where a
further start has begun in between, and then it is the failure that was last.
-/

namespace SnippetRunner.Adapter

namespace System

variable {s s' s₁ s₂ s₃ : System} {a b c : CallId} {k : Call} {l : Label} {r : Option Reply}

/-! ## Histories -/

/-- A step that has been taken, and what it gave back. -/
structure Event where
  label : Label
  reply : Option Reply

namespace Event

/-- A start begins: a call has the turn and does not return with it. -/
def isStart : Event → Bool
  | ⟨.enter _, none⟩ => true
  | _ => false

/-- The outcome of a start, where the adapter learns of it. -/
def outcome? : Event → Option (Except Failure Unit)
  | ⟨.settle _, some (.initialized q)⟩ => some q
  | _ => none

/-- The start of a call comes to its end, or its caller gives it up. -/
def isEndOf (c : CallId) : Event → Bool
  | ⟨.settle d, some (.initialized _)⟩ => d = c
  | ⟨.drop n, _⟩ => .caller n = c
  | _ => false

end Event

/-- A run with the steps that have been taken, the first one first. -/
inductive Traces (s : System) : List Event → System → Prop where
  | refl : Traces s [] s
  | next {h s₁ s₂ l r} (run : Traces s h s₁) (step : s₁.step l = some (s₂, r)) :
    Traces s (h ++ [⟨l, r⟩]) s₂

/-- How many starts have begun. -/
def startsIn (h : List Event) : Nat := h.countP Event.isStart

/-- The outcome of the last start that has come to its end. -/
def lastOutcome? (h : List Event) : Option (Except Failure Unit) :=
  (h.filterMap Event.outcome?).getLast?

/-- The outcome of the start that a call is at in the beginning, unless its caller has given it up. -/
def outcomeOf? (c : CallId) (h : List Event) : Option (Except Failure Unit) :=
  (h.find? (Event.isEndOf c)).bind Event.outcome?

/-! ## What the state keeps of the starts -/

/-- A call returns how its start has ended for the adapter. -/
theorem settleStart_reply {t : Ticket} {q : Except Failure WorkerId}
    (settled : s.settleStart c t q = (s', r)) :
    r = some (.initialized (s.state.leave s.language t q).1) :=
  (congrArg Prod.snd settled).symm

/-- What the state keeps of the starts is what the steps say of them. -/
theorem Step.tally (h : Step s l s' r) :
    s'.state.tally =
      (s.state.attempts + (Event.isStart ⟨l, r⟩).toNat,
        (Event.outcome? ⟨l, r⟩).or s.state.lastStart) := by
  cases h with
  | prepare free asked => rcases ask_cases asked with ⟨-, rfl⟩ | ⟨-, rfl⟩ <;> rfl
  | replace free ordered asked => rcases ask_cases asked with ⟨-, rfl⟩ | ⟨-, rfl⟩ <;> rfl
  | @enter c o s' r stands first taken =>
    by_cases running : s.state.phase = .ready ∨ s.state.phase = .executing
    · rw [takeTurn_of_running running] at taken
      cases taken
      rfl
    · cases shared : s.state.sharedFailure? o with
      | some e =>
        rw [takeTurn_of_shared running shared] at taken
        cases taken
        rfl
      | none =>
        rw [takeTurn_of_not_shared running shared] at taken
        cases taken
        rfl
  | listen stands awake taken =>
    obtain ⟨b, m, ms, u, -, -, ⟨-, rfl⟩ | ⟨v, -, rfl⟩⟩ := listen_cases taken <;> rfl
  | execute free taken =>
    rcases execute_cases taken with rfl | ⟨-, ⟨w, -, rfl⟩ | ⟨-, rfl⟩⟩
    · rfl
    · exact State.tally_checkOut
    · exact State.tally_checkOut
  | send stands awake sent =>
    obtain ⟨b, -, rfl⟩ := send_cases sent
    rfl
  | receive stands awake taken =>
    obtain ⟨b, m, ms, e, -, -, ⟨-, rfl⟩ | ⟨fault, -, rfl⟩⟩ := receive_cases taken <;> rfl
  | @settleStart c t q s' r stands settled =>
    obtain rfl := settleStart_reply settled
    obtain ⟨v, rfl⟩ := settleStart_cases settled
    exact State.tally_leave
  | @settleExecution c t w x e ending stands =>
    cases keeps : ending.keepsWorker with
    | true =>
      obtain ⟨v, hs⟩ := settleExecution_of_keeps (s := s) (c := c) (t := t) (w := w) keeps
      rw [hs]
      exact State.tally_checkIn
    | false =>
      rw [settleExecution_of_lost keeps]
      exact State.tally_discard
  | queue | plan | wake | rest | launch | fail | stop | abandon | terminate | drop | deliver => rfl

/-- Over a run the starts that have begun add up, and the last outcome is the one that is kept. -/
theorem Traces.tally {h : List Event} (run : Traces s h s') :
    s'.state.tally =
      (s.state.attempts + startsIn h, (lastOutcome? h).or s.state.lastStart) := by
  induction run with
  | refl => rfl
  | @next h s₁ s₂ l r run step ih =>
    obtain ⟨attempts, lastStart⟩ := Prod.mk.inj ih
    rw [(Step.of_step step).tally, attempts, lastStart]
    unfold lastOutcome? startsIn
    rw [List.countP_append, List.filterMap_append, List.getLast?_append, Nat.add_assoc]
    cases outcome : Event.outcome? ⟨l, r⟩ <;> cases start : Event.isStart ⟨l, r⟩ <;>
      simp [outcome, start]

/-! ## Starts along a run -/

/-- Only a call itself brings its start to its end. -/
theorem Event.isEndOf_eq_false (other : l.by? ≠ some c) : Event.isEndOf c ⟨l, r⟩ = false := by
  cases l with
  | drop n => simpa [Event.isEndOf, Label.by?] using other
  | settle d =>
    have hd : d ≠ c := fun same => other (congrArg some same)
    rcases r with _ | _ | _ <;> simp [Event.isEndOf, hd]
  | _ => rfl

/-- A step of a call that starts a worker: the start goes on, or it is at its end and the call is
gone. -/
theorem Step.of_starts {t : Ticket} (h : Step s l s' r) (mine : l.by? = some c)
    (stands : s.call? c = some k) (duty : k.duty = .starts t) :
    (Event.isEndOf c ⟨l, r⟩ = false ∧ s'.AtStart c) ∨
    (Event.isEndOf c ⟨l, r⟩ = true ∧ s'.call? c = none) := by
  have other {d : CallId} {q : Call} (mine : some d = some c) (hq : s.call? d = some q)
      (hn : q.duty ≠ .starts t) : False := by
    rw [(same_of_stands stands mine hq).1] at hn
    exact hn duty
  cases h with
  | prepare free _ => exact absurd free (not_free_of_stands stands mine)
  | replace free _ _ => exact absurd free (not_free_of_stands stands mine)
  | execute free _ => exact absurd free (not_free_of_stands stands mine)
  | queue hq => exact (other mine hq (by simp [Call.duty])).elim
  | enter hq _ _ => exact (other mine hq (by simp [Call.duty])).elim
  | send hq _ _ => exact (other mine hq (by simp [Call.duty])).elim
  | receive hq _ _ => exact (other mine hq (by simp [Call.duty])).elim
  | abandon hq _ => exact (other mine hq (by simp [Call.duty])).elim
  | settleExecution hq => exact (other mine hq (by simp [Call.duty])).elim
  | plan _ => cases mine
  | terminate => cases mine
  | deliver _ => cases mine
  | wake _ _ _ | rest _ _ _ =>
    cases mine
    exact .inl ⟨rfl, k, t, stands, duty⟩
  | launch hq _ _ =>
    obtain ⟨rfl, rfl⟩ := same_of_stands stands mine hq
    exact .inl ⟨rfl, _, _, call?_setCall_self .., rfl⟩
  | listen hq _ taken =>
    obtain ⟨rfl, rfl⟩ := same_of_stands stands mine hq
    obtain ⟨b, m, ms, u, -, -, ⟨-, rfl⟩ | ⟨v, -, rfl⟩⟩ := listen_cases taken
    · exact .inl ⟨rfl, _, _, call?_setCall_self .., rfl⟩
    · exact .inl ⟨rfl, _, _, call?_setCall_self .., rfl⟩
  | fail hq _ _ _ =>
    obtain ⟨rfl, rfl⟩ := same_of_stands stands mine hq
    exact .inl ⟨rfl, _, _, call?_setCall_self .., rfl⟩
  | stop hq _ _ =>
    obtain ⟨rfl, rfl⟩ := same_of_stands stands mine hq
    exact .inl ⟨rfl, _, _, call?_setCall_self .., rfl⟩
  | @settleStart d u q s' r hq settled =>
    obtain ⟨rfl, rfl⟩ := same_of_stands stands mine hq
    obtain rfl := settleStart_reply settled
    obtain ⟨v, rfl⟩ := settleStart_cases settled
    exact .inr ⟨by simp [Event.isEndOf], by simp⟩
  | drop hq _ =>
    obtain ⟨rfl, rfl⟩ := same_of_stands stands mine hq
    refine .inr ⟨by simp [Event.isEndOf], ?_⟩
    rw [System.drop, call?_kill, call?_endCall, if_pos rfl]

/-- A start goes on over a step, or it is at its end, and then it does not go on. -/
theorem Step.atStart_iff (h : Step s l s' r) (start : s.AtStart c) :
    s'.AtStart c ↔ Event.isEndOf c ⟨l, r⟩ = false := by
  obtain ⟨k, t, stands, duty⟩ := start
  by_cases mine : l.by? = some c
  · rcases h.of_starts mine stands duty with ⟨on, still⟩ | ⟨atEnd, gone⟩
    · exact iff_of_true still on
    · refine iff_of_false ?_ (by simp [atEnd])
      intro still
      obtain ⟨q, u, hq, -⟩ := still
      rw [gone] at hq
      cases hq
  · exact iff_of_true ⟨k, t, (h.call?_eq mine).trans stands, duty⟩ (Event.isEndOf_eq_false mine)

/-- A call comes to start a worker only when a start begins. -/
theorem Step.isStart (h : Step s l s' r) (start : s'.AtStart c) (before : ¬s.AtStart c) :
    Event.isStart ⟨l, r⟩ = true := by
  obtain ⟨-, -, -, -, begun⟩ := h.begins start before
  have counted := congrArg Prod.fst h.tally
  have one : s'.state.attempts = s.state.attempts + 1 := congrArg State.attempts begun
  have sum : s'.state.attempts = s.state.attempts + (Event.isStart ⟨l, r⟩).toNat := counted
  rw [← Bool.toNat_eq_one]
  omega

/-- The adapter learns of an outcome only from a call whose start is at its end. -/
theorem Step.exists_end (h : Step s l s' r) {q : Except Failure Unit}
    (outcome : Event.outcome? ⟨l, r⟩ = some q) :
    ∃ c, s.AtStart c ∧ Event.isEndOf c ⟨l, r⟩ = true := by
  cases h with
  | @settleStart c t q s' r stands settled =>
    obtain rfl := settleStart_reply settled
    exact ⟨c, ⟨_, _, stands, rfl⟩, by simp [Event.isEndOf]⟩
  | _ => cases outcome

/-- The adapter is ready or executes. -/
def Serving (s : System) : Prop := s.state.phase = .ready ∨ s.state.phase = .executing

/-- Only a start that succeeds makes an adapter serve that does not. -/
theorem Step.not_serving (h : Step s l s' r) (idle : ¬s.Serving)
    (failed : Event.outcome? ⟨l, r⟩ ≠ some (.ok ())) : ¬s'.Serving := by
  cases h with
  | prepare free asked => rcases ask_cases asked with ⟨-, rfl⟩ | ⟨-, rfl⟩ <;> exact idle
  | replace free ordered asked => rcases ask_cases asked with ⟨-, rfl⟩ | ⟨-, rfl⟩ <;> exact idle
  | enter stands first taken =>
    rcases takeTurn_cases taken with ⟨running, -⟩ | ⟨-, ⟨e, -, rfl⟩ | ⟨-, rfl⟩⟩
    · exact absurd running idle
    · exact idle
    · simp [Serving, begun, setCall, State.begin]
  | listen stands awake taken =>
    obtain ⟨b, m, ms, u, -, -, ⟨-, rfl⟩ | ⟨v, -, rfl⟩⟩ := listen_cases taken <;> exact idle
  | execute free taken =>
    rcases execute_cases taken with rfl | ⟨ready, -⟩
    · exact idle
    · exact absurd (.inl ready) idle
  | send stands awake sent =>
    obtain ⟨b, -, rfl⟩ := send_cases sent
    exact idle
  | receive stands awake taken =>
    obtain ⟨b, m, ms, e, -, -, ⟨-, rfl⟩ | ⟨fault, -, rfl⟩⟩ := receive_cases taken <;> exact idle
  | @settleStart c t q s' r stands settled =>
    cases outdated : s.state.isOutdated t with
    | true =>
      rw [settleStart_of_outdated outdated] at settled
      cases settled
      exact idle
    | false =>
      cases q with
      | ok w =>
        rw [settleStart_of_ok outdated] at settled
        cases settled
        exact absurd rfl failed
      | error e =>
        rw [settleStart_of_error outdated] at settled
        cases settled
        simp [Serving, endCall]
  | @settleExecution c t w x e ending stands =>
    -- nobody waits for an execution
    have unwanted : s.state.awaits t = false := by
      rw [← Bool.not_eq_true, State.awaits_eq_true_iff]
      exact fun awaited => idle (.inr awaited.2)
    cases keeps : ending.keepsWorker with
    | true =>
      obtain ⟨v, hs⟩ := settleExecution_of_keeps (s := s) (c := c) (t := t) (w := w) keeps
      rw [hs, State.checkIn_of_not_awaits unwanted]
      exact idle
    | false =>
      rw [settleExecution_of_lost keeps, State.discard_of_not_awaits unwanted]
      exact idle
  | terminate =>
    have down : s.terminate.state.phase = .uninitialized := rfl
    simp [Serving, down]
  | queue | plan | wake | rest | launch | fail | stop | abandon | drop | deliver => exact idle

namespace Traces

variable {h : List Event}

theorem runs (run : Traces s h s') : Runs (fun _ => True) s s' := by
  induction run with
  | refl => exact .refl
  | next _ step ih => exact ih.next trivial step

theorem lawful (run : Traces s h s') (lawful : s.ledger.Lawful) : s'.ledger.Lawful := by
  induction run with
  | refl => exact lawful
  | next _ step ih => exact (Step.of_step step).lawful ih

/-- A start that a call is at in the beginning goes on as long as it has not come to its end. -/
theorem atStart_or_isSome (run : Traces s h s') (start : s.AtStart a) :
    (h.find? (Event.isEndOf a) = none ∧ s'.AtStart a) ∨ (h.find? (Event.isEndOf a)).isSome := by
  induction run with
  | refl => exact .inl ⟨rfl, start⟩
  | @next h s₁ s₂ l r run step ih =>
    rcases ih with ⟨none, still⟩ | found
    · have goes := (Step.of_step step).atStart_iff still
      cases atEnd : Event.isEndOf a ⟨l, r⟩ with
      | true => exact .inr (by simp [List.find?_append, none, atEnd])
      | false => exact .inl ⟨by simp [List.find?_append, none, atEnd], goes.2 atEnd⟩
    · exact .inr (by simp [List.find?_append, found])

/-- As long as no other start begins, nobody starts a worker when the start of a call has come to its
end, and the adapter serves only where that start has succeeded. -/
theorem alone (run : Traces s h s') (lawful : s.ledger.Lawful) (start : s.AtStart a)
    (idle : ¬s.Serving) (none : startsIn h = 0) :
    (h.find? (Event.isEndOf a) = .none ∧ s'.AtStart a ∧ ¬s'.Serving) ∨
    (∃ e, h.find? (Event.isEndOf a) = some e ∧ (∀ c, ¬s'.AtStart c) ∧
      (e.outcome? ≠ some (.ok ()) → ¬s'.Serving)) := by
  induction run with
  | refl => exact .inl ⟨rfl, start, idle⟩
  | @next h s₁ s₂ l r run step ih =>
    have step := Step.of_step step
    have lined := (run.lawful lawful).toLined
    obtain ⟨before, now⟩ : startsIn h = 0 ∧ Event.isStart ⟨l, r⟩ = false := by
      simpa [startsIn] using none
    have kept (c : CallId) (still : s₂.AtStart c) : s₁.AtStart c := by
      by_contra fresh
      rw [step.isStart still fresh] at now
      cases now
    rcases ih before with ⟨unended, still, idle⟩ | ⟨e, found, unstarted, idle⟩
    · have only (c : CallId) (hc : s₁.AtStart c) : c = a := by
        obtain ⟨t, starts⟩ := System.atStart_iff.1 hc
        obtain ⟨u, starts'⟩ := System.atStart_iff.1 still
        exact lined.unique starts starts'
      cases atEnd : Event.isEndOf a ⟨l, r⟩ with
      | false =>
        refine .inl ⟨by simp [List.find?_append, unended, atEnd], (step.atStart_iff still).2 atEnd, ?_⟩
        refine step.not_serving idle ?_
        intro outcome
        obtain ⟨c, hc, hend⟩ := step.exists_end outcome
        rw [only c hc, atEnd] at hend
        cases hend
      | true =>
        refine .inr ⟨⟨l, r⟩, by simp [List.find?_append, unended, atEnd], ?_, step.not_serving idle⟩
        intro c hc
        have same := only c (kept c hc)
        subst same
        rw [(step.atStart_iff still).1 hc] at atEnd
        cases atEnd
    · refine .inr ⟨e, by simp [List.find?_append, found], fun c hc => unstarted c (kept c hc), ?_⟩
      intro failed
      refine step.not_serving (idle failed) ?_
      intro outcome
      obtain ⟨c, hc, -⟩ := step.exists_end outcome
      exact unstarted c hc

/-- A call that does nothing but get in line has seen what it saw when it asked. -/
theorem asks {o : Nat} (run : Traces s h s') (asks : s.Asks b o)
    (waits : ∀ e ∈ h, e.label.by? = some b → e.label = .queue b) : s'.Asks b o := by
  induction run with
  | refl => exact asks
  | @next h s₁ s₂ l r run step ih =>
    have step := Step.of_step step
    obtain ⟨k, hk, observed⟩ := ih fun e he => waits e (List.mem_append_left _ he)
    by_cases mine : l.by? = some b
    · have queued : l = .queue b := waits ⟨l, r⟩ (by simp) mine
      subst queued
      cases step with
      | @queue c o' stands =>
        rw [stands] at hk
        cases hk
        exact ⟨.waiting o', call?_setCall_self .., observed⟩
    · exact ⟨k, (step.call?_eq mine).trans hk, observed⟩

end Traces

/-- The last outcome of all is the last one since some moment, if there is one. -/
theorem lastOutcome?_append (past h : List Event) :
    lastOutcome? (past ++ h) = (lastOutcome? h).or (lastOutcome? past) := by
  unfold lastOutcome?
  rw [List.filterMap_append, List.getLast?_append]

/-! ## Asking while a start goes on -/

/-- The call that asks for a worker with this label. -/
def Label.asks? : Label → Option CallId
  | .prepare n => some (.caller n)
  | .replace n => some (.background n)
  | _ => none

/-- A call that asks while the adapter is not ready has seen all starts that have begun. -/
theorem Step.asks (h : Step s l s' r) (label : l.asks? = some b) (waiting : s.state.phase ≠ .ready) :
    s'.state = s.state ∧ s'.Asks b s.state.attempts := by
  cases h with
  | prepare free asked =>
    cases label
    rcases ask_cases asked with ⟨ready, -⟩ | ⟨-, rfl⟩
    · exact absurd ready waiting
    · exact ⟨rfl, _, call?_setCall_self .., rfl⟩
  | replace free ordered asked =>
    cases label
    rcases ask_cases asked with ⟨ready, -⟩ | ⟨-, rfl⟩
    · exact absurd ready waiting
    · exact ⟨rfl, _, call?_setCall_self .., rfl⟩
  | _ => cases label

/-- What comes of a call that has asked while the start of another one went on, in the step with which
it has its turn. All that had been before it asked is the past. -/
structure Joined (a b : CallId) (past h : List Event) (s s' : System) (r : Option Reply) : Prop where
  /-- It has waited: the start is at its end, or its caller has given it up. -/
  ended : (h.find? (Event.isEndOf a)).isSome
  /-- It returns the outcome of the start if that has succeeded and the adapter still serves, or if
  another start has begun since, and the failure of the first one is the last outcome. -/
  returns_iff : ∀ q, outcomeOf? a h = some q → (r = some (.initialized q) ↔
    (q = .ok () ∧ s.Serving) ∨
      ((∃ e, q = .error e) ∧ ¬s.Serving ∧ startsIn h ≠ 0 ∧ lastOutcome? (past ++ h) = some q))
  /-- It does not return if the adapter does not serve, and no other start has begun since or the last
  outcome is no failure. -/
  begins_iff : r = none ↔
    ¬s.Serving ∧ (startsIn h = 0 ∨ ∀ e, lastOutcome? (past ++ h) ≠ some (.error e))
  /-- Then a start of its own begins, and a further launch plan is ordered. -/
  begun : r = none → s'.AtStart b ∧ s'.orders = s.orders ++ [s.state.attempts + 1]
  back : r ≠ none → s'.call? b = none ∧ s'.orders = s.orders
  /-- So it comes wherever the start has failed and nobody else has begun one: the failure is not
  shared. -/
  alone : ∀ e, outcomeOf? a h = some (.error e) → startsIn h = 0 → r = none

/-- The turn of a call that has seen this number of starts, by what has been since. -/
theorem joined_of_turn {past h : List Event} {o : Nat} (taken : s.takeTurn b o = (s', r))
    (ended : (h.find? (Event.isEndOf a)).isSome) (attempts : s.state.attempts = o + startsIn h)
    (lastStart : s.state.lastStart = lastOutcome? (past ++ h))
    (alone : ∀ e, outcomeOf? a h = some (.error e) → startsIn h = 0 → ¬s.Serving) :
    Joined a b past h s s' r := by
  by_cases serving : s.Serving
  · rw [takeTurn_of_running serving] at taken
    cases taken
    refine ⟨ended, ?_, by simp [serving], by simp, by simp [endCall, call?], ?_⟩
    · intro q _
      cases q <;> simp [serving]
    · intro e failed lonely
      exact absurd serving (alone e failed lonely)
  · have shares (e : Failure) : s.state.sharedFailure? o = some e ↔
        startsIn h ≠ 0 ∧ lastOutcome? (past ++ h) = some (.error e) := by
      rw [State.sharedFailure?_eq_some_iff, attempts, lastStart]
      refine and_congr_left' ?_
      omega
    cases shared : s.state.sharedFailure? o with
    | some e =>
      obtain ⟨fresh, last⟩ := (shares e).1 shared
      rw [takeTurn_of_shared serving shared] at taken
      cases taken
      refine ⟨ended, ?_, ?_, by simp, by simp [endCall, call?], ?_⟩
      · intro q _
        rw [last]
        cases q <;> simp [serving, fresh]
      · simp [serving, fresh, last]
      · intro _ _ lonely
        exact absurd lonely fresh
    | none =>
      have unshared (e : Failure) (fresh : startsIn h ≠ 0) :
          lastOutcome? (past ++ h) ≠ some (.error e) := by
        intro last
        rw [(shares e).2 ⟨fresh, last⟩] at shared
        cases shared
      rw [takeTurn_of_not_shared serving shared] at taken
      cases taken
      refine ⟨ended, ?_, ?_, ?_, by simp, fun _ _ _ => rfl⟩
      · intro q _
        refine iff_of_false (by simp) ?_
        rintro (⟨-, serves⟩ | ⟨⟨e, rfl⟩, -, fresh, last⟩)
        · exact serving serves
        · exact unshared e fresh last
      · refine iff_of_true rfl ⟨serving, ?_⟩
        by_cases fresh : startsIn h = 0
        · exact .inl fresh
        · exact .inr fun e => unshared e fresh
      · intro _
        exact ⟨⟨_, _, call?_setCall_self .., rfl⟩, rfl⟩

/-- A call that asks for a worker while another call starts one waits for the end of that start, and
what comes of it then depends on whether a further start has begun in between. In particular it does
not share the failure of the start that it has waited for, but begins one of its own. -/
theorem joined_of_traces {language : String} {budget : Budget} {past h : List Event}
    {r₀ : Option Reply} (before : Traces (new language budget) past s) (starts : s.Starts a)
    (label : l.asks? = some b) (asked : s.step l = some (s₁, r₀)) (since : Traces s₁ h s₂)
    (waits : ∀ e ∈ h, e.label.by? = some b → e.label = .queue b)
    (turn : s₂.step (.enter b) = some (s₃, r)) : Joined a b past h s₂ s₃ r := by
  have lawful := before.runs.lawful
  have asked := Step.of_step asked
  have lawful₁ := asked.lawful lawful
  have lined₂ := (since.lawful lawful₁).toLined
  -- the start that goes on is the reason why the adapter does not serve
  obtain ⟨t, duty, present⟩ := starts_iff.1 starts
  have phase : s.state.phase = .initializing :=
    (before.runs.tended.1.of_starts lawful.toLined duty present).1
  obtain ⟨state, asks⟩ := asked.asks label (by simp [phase])
  have idle : ¬s₁.Serving := by simp [Serving, state, phase]
  have start : s₁.AtStart a := by
    refine (asked.atStart_iff (System.atStart_iff.2 ⟨t, duty⟩)).2 ?_
    cases l with
    | prepare n => rfl
    | replace n => rfl
    | _ => cases label
  cases Step.of_step turn with
  | @enter _ o s₃ r stands first taken =>
    have gone : ¬s₂.AtStart a := by
      intro still
      -- otherwise the other call would have the turn
      obtain ⟨u, duty'⟩ := System.atStart_iff.1 still
      have same : a = b := Option.some.inj ((lined₂.first a u duty').symm.trans first)
      rw [same, duty_of_stands stands] at duty'
      cases duty'
    have ended : (h.find? (Event.isEndOf a)).isSome :=
      (since.atStart_or_isSome start).resolve_left fun goes => gone goes.2
    have seen : o = s.state.attempts := by
      obtain ⟨k, hk, observed⟩ := since.asks asks waits
      rw [stands] at hk
      cases hk
      exact Option.some.inj observed
    obtain ⟨attempts, lastStart⟩ := Prod.mk.inj since.tally
    have last : s.state.lastStart = lastOutcome? past := by
      have all := congrArg Prod.snd before.tally
      exact all.trans (Option.or_none ..)
    refine joined_of_turn taken ended ?_ ?_ ?_
    · rw [attempts, state, seen]
    · rw [lastStart, state, last, lastOutcome?_append]
    · intro e failed lonely
      rcases since.alone lawful₁ start idle lonely with ⟨-, goes, -⟩ | ⟨e', found, -, idle'⟩
      · exact absurd goes gone
      · refine idle' ?_
        have outcome : e'.outcome? = some (.error e) := by
          rwa [outcomeOf?, found, Option.bind_some] at failed
        simp [outcome]

/-- Takes steps by these labels, one after the other, with what they give back. -/
def trace (s : System) : List Label → Option (List Event × System)
  | [] => some ([], s)
  | l :: ls => do
    let (s₁, r) ← s.step l
    let (h, s₂) ← s₁.trace ls
    some (⟨l, r⟩ :: h, s₂)

/-- A step before a run. -/
theorem Traces.cons {h : List Event} (step : s.step l = some (s₁, r)) (run : Traces s₁ h s₂) :
    Traces s (⟨l, r⟩ :: h) s₂ := by
  induction run with
  | refl => exact Traces.refl.next step
  | next _ last ih => exact ih.next last

/-- Taking steps by labels is a run with the steps that have been taken. -/
theorem Traces.of_trace {ls : List Label} {h : List Event} (took : s.trace ls = some (h, s')) :
    Traces s h s' := by
  induction ls generalizing s h with
  | nil =>
    cases took
    exact .refl
  | cons l ls ih =>
    obtain ⟨⟨s₁, r⟩, step, rest⟩ := Option.bind_eq_some_iff.1 took
    obtain ⟨⟨h', s₂⟩, more, last⟩ := Option.bind_eq_some_iff.1 rest
    cases last
    exact .cons step (ih more)

/-- A worker is started. -/
def starting : List Label :=
  [.prepare 0, .queue (.caller 0), .enter (.caller 0), .plan 1, .wake (.caller 0),
    .launch (.caller 0)]

/-- Another caller gets in line, and the start fails. -/
def failing : List Label :=
  [.queue (.caller 1),
    .fail (.caller 0) (.initialization "lua" "worker exited before ready (exit status: 1)"),
    .settle (.caller 0)]

/-- The caller that has asked during the start does not share its failure: it begins a start of its
own, for which a further launch plan is ordered. -/
theorem joined_of_traces_failing : ∃ s s₁ s₂ s₃ past h e,
    (new "lua" .standard).trace starting = some (past, s) ∧
    s.step (.prepare 1) = some (s₁, none) ∧ s₁.trace failing = some (h, s₂) ∧
    outcomeOf? (.caller 0) h = some (.error e) ∧
    s₂.step (.enter (.caller 1)) = some (s₃, none) ∧ s₃.orders = [2] ∧
    Joined (.caller 0) (.caller 1) past h s₂ s₃ none := by
  refine ⟨_, _, _, _, _, _, _, rfl, rfl, rfl, rfl, rfl, rfl, ?_⟩
  have before := @Traces.of_trace (new "lua" .standard) _ starting _ rfl
  refine joined_of_traces (l := .prepare 1) before ⟨_, _, rfl, rfl, rfl⟩ rfl rfl
    (@Traces.of_trace _ _ failing _ rfl) ?_ rfl
  simp [Label.by?]

end System

end SnippetRunner.Adapter
