import SnippetRunner.Bench.Rehearsal
import SnippetRunner.Proofs.Adapter.Alive
import SnippetRunner.Proofs.Adapter.Polling

/-!
# Looks in rehearsals

Whenever a rehearsed task goes on whose call is executing, it looks at its execution once: what it does
to the adapter is a look at the call, after which it waits on, or the adapter learns how the execution
has ended and the task has got what the call returns. The deadlines of rehearsals, in whole
milliseconds, are reached as soon as the time has gone by that was asked for, and not before.
-/

namespace SnippetRunner.Bench.Rehearsal

open Adapter (System Ticket WorkerId Errand Call)
open Adapter.System (Label Sight)
open Worker (Ending Execution)

variable {r : Rehearsal} {t : Task} {u : Ticket} {w : WorkerId} {x : Errand} {e : Option Execution}
  {a : Activity}

/-! ## The adapter of a rehearsal -/

theorem adapter_take (r : Rehearsal) (l : Label) : (r.take l).1.adapter = r.adapter.take l := by
  unfold take System.take
  cases r.adapter.step l <;> rfl

theorem now_take (r : Rehearsal) (l : Label) : (r.take l).1.now = r.now := by
  unfold take
  cases r.adapter.step l <;> rfl

theorem turn_eq (r : Rehearsal) (l : Label) :
    (r.turn l).adapter = r.adapter.take l ∧ (r.turn l).now = r.now :=
  ⟨adapter_take r l, now_take r l⟩

theorem takeTimes_eq (n : Nat) (r : Rehearsal) (l : Label) :
    (takeTimes n r l).adapter = System.takeTimes n r.adapter l ∧ (takeTimes n r l).now = r.now := by
  induction n generalizing r with
  | zero => exact ⟨rfl, rfl⟩
  | succ n ih =>
    obtain ⟨adapter, now⟩ := ih (r.take l).1
    rw [adapter_take] at adapter
    rw [now_take] at now
    exact ⟨adapter, now⟩

/-- To ask for the status of a worker has nothing to do with the adapter. -/
theorem tryWait_eq (r : Rehearsal) (w : WorkerId) :
    (r.tryWait w).2.adapter = r.adapter ∧ (r.tryWait w).2.now = r.now := by
  unfold tryWait
  split <;> exact ⟨rfl, rfl⟩

/-- All messages are taken that nobody has taken. -/
theorem unread_eq (r : Rehearsal) (w : WorkerId) : r.unread w = (r.adapter.desk w).messages.length := by
  unfold unread System.desk
  cases r.adapter.desks[w]? <;> rfl

theorem isCancelled_eq (stands : r.adapter.call? t.call = some (.executing u w x e)) :
    r.isCancelled t = r.adapter.state.isCancelled u := by
  unfold isCancelled
  rw [stands]
  rfl

/-- A task the execution of which is not to stop wakes. -/
theorem adapter_turn_wake (stands : r.adapter.call? t.call = some (.executing u w x e))
    (wanted : r.adapter.state.isCancelled u = false) :
    (r.turn (.wake t.call)).adapter = r.adapter.wake t.call :=
  (turn_eq ..).1.trans (System.take_wake stands wanted)

/-! ## What comes of a look -/

/-- What comes of a task when the look at its execution has brought the adapter here. -/
inductive Watched (s : System) (t : Task) (after : Rehearsal × Task) : Prop where
  | waits (goesOn : ∃ u w x e, s.call? t.call = some (.executing u w x e))
    (same : after.1.adapter = s) (none : after.2.answer? = none)
  | returns {u : Ticket} {w : WorkerId} {x : Errand} {e : Option Execution} {ending : Ending}
    (stands : s.call? t.call = some (.executed u w x e ending))
    (step : s.step (.settle t.call) = some (after.1.adapter,
      some (.executed (.ok (ending.report x.budget (x.transcript e).output)))))
    (answer : after.2.answer? = some ⟨.executed (.ok (ending.report x.budget (x.transcript e).output)),
      after.1.adapter.state.phase⟩)

/-- The adapter learns how an execution ended. -/
theorem watched_conclude {ending : Ending}
    (stands : r.adapter.call? t.call = some (.executed u w x e ending)) :
    Watched r.adapter t (r.conclude t) := by
  have step := (System.Step.settleExecution stands).step_eq
  have concluded : r.take (.settle t.call) = ((r.take (.settle t.call)).1,
      some (.executed (.ok (ending.report x.budget (x.transcript e).output)))) := by
    unfold take
    rw [step]
  unfold conclude
  rw [concluded]
  have adapter := (adapter_take r (.settle t.call)).trans (System.take_eq step)
  refine .returns stands ?_ rfl
  show _ = some ((r.take (.settle t.call)).1.adapter, _)
  rw [adapter]
  exact step

/-- A task waits on, and its call rests. -/
theorem watched_wait (stands : r.adapter.call? t.call = some (.executing u w x e))
    (awake : t.call ∈ r.adapter.awake) (waiting : Task.answer? { t with activity := a } = none) :
    Watched (r.adapter.take (.rest t.call)) t (r.wait t a) := by
  have step := System.Step.rest stands rfl awake
  refine .waits ⟨u, w, x, e, ?_⟩ (turn_eq r (.rest t.call)).1 waiting
  rw [System.take_eq step.step_eq]
  exact stands

/-- An execution has come to another end than that its request is done. -/
theorem watched_abandon {ending : Ending}
    (stands : r.adapter.call? t.call = some (.executing u w x e))
    (may : r.adapter.mayEnd t.call u ending = true) :
    Watched (r.adapter.take (.abandon t.call ending)) t (r.concludeBy t (.abandon t.call ending)) := by
  have step := System.Step.abandon stands may
  have stands' : (r.take (.abandon t.call ending)).1.adapter.call? t.call =
      some (.executed u w x e ending) := by
    rw [adapter_take, System.take_eq step.step_eq]
    exact System.call?_setCall_self ..
  rw [← adapter_take]
  exact watched_conclude stands'

/-- An execution that is awake has lost its worker, or its time is up, or it waits. -/
theorem watched_tryAbandon (lost : Option String) {p : Bool}
    (stands : r.adapter.call? t.call = some (.executing u w x e)) (awake : t.call ∈ r.adapter.awake)
    (waiting : Task.answer? { t with activity := a } = none) :
    Watched (r.adapter.tryAbandon t.call (Ending.choose false (lost.map .lost) p)) t
      (r.tryAbandon t (Ending.choose false (lost.map .lost) p) a) := by
  cases chosen : Ending.choose false (lost.map .lost) p with
  | none => exact watched_wait stands awake waiting
  | some ending => exact watched_abandon stands (System.mayEnd_of_choose awake chosen)

/-- A task that waits for the status of its worker has found it, or the time is up, or it waits on. -/
theorem watched_lose (grace deadline : Nat)
    (stands : r.adapter.call? t.call = some (.executing u w x e))
    (wanted : r.adapter.state.isCancelled u = false) :
    ∃ lost : Option String, Watched
      ((r.adapter.wake t.call).tryAbandon t.call
        (Ending.choose false (lost.map .lost) (decide (deadline ≤ r.now)))) t
      (r.lose t grace deadline) := by
  let r₁ := r.turn (.wake t.call)
  have woken : r₁.adapter = r.adapter.wake t.call := adapter_turn_wake stands wanted
  obtain ⟨adapter, -⟩ := tryWait_eq r₁ w
  have given : ∃ lost : Option String, r.lose t grace deadline =
      (r₁.tryWait w).2.tryAbandon t
        (Ending.choose false (lost.map .lost) (decide (deadline ≤ r.now))) (.losing grace deadline) := by
    unfold lose
    rw [stands]
    simp only [isCancelled_eq stands, wanted, Bool.false_eq_true, if_false]
    cases (r₁.tryWait w).1 with
    | some status => exact ⟨some status.describe, rfl⟩
    | none =>
      by_cases gone : grace ≤ (r₁.tryWait w).2.now
      · refine ⟨some Worker.streamClosed, ?_⟩
        simp only [r₁, if_pos gone]
        rfl
      · refine ⟨none, ?_⟩
        simp only [r₁, if_neg gone]
        rfl
  obtain ⟨lost, same⟩ := given
  refine ⟨lost, ?_⟩
  rw [same, ← woken, ← adapter]
  have stands' : (r₁.tryWait w).2.adapter.call? t.call = some (.executing u w x e) := by
    rw [adapter, woken]
    exact stands
  exact watched_tryAbandon lost stands' (by rw [adapter, woken]; simp) rfl

/-- A task of which the execution has been overtaken stops. -/
theorem watched_of_cancelled {v : Sight} {p : Bool}
    (stands : r.adapter.call? t.call = some (.executing u w x e))
    (cancelled : r.adapter.state.isCancelled u = true) :
    Watched (r.adapter.poll t.call v p) t (r.concludeBy t (.abandon t.call .terminated)) := by
  rw [System.poll_of_cancelled stands cancelled]
  exact watched_abandon stands cancelled

/-! ## Looks -/

/-- A task that waits for the status of its worker looks at its execution. -/
theorem exists_watched_lose {e : Execution} (grace deadline : Nat)
    (stands : r.adapter.call? t.call = some (.executing u w x (some e))) :
    ∃ v : Sight, Watched (r.adapter.poll t.call v (decide (deadline ≤ r.now))) t
      (r.lose t grace deadline) := by
  cases cancelled : r.adapter.state.isCancelled u with
  | true =>
    have stops : r.lose t grace deadline = r.concludeBy t (.abandon t.call .terminated) := by
      unfold lose
      rw [stands]
      exact if_pos ((isCancelled_eq stands).trans cancelled)
    exact ⟨⟨false, none⟩, stops ▸ watched_of_cancelled stands cancelled⟩
  | false =>
    obtain ⟨lost, watched⟩ := watched_lose grace deadline stands cancelled
    refine ⟨⟨false, lost⟩, ?_⟩
    rw [System.poll_of_goesOn (v := ⟨false, lost⟩) stands cancelled stands]
    exact watched

/-- A worker that has not taken the whole request is not listened to. -/
theorem exists_watched_follow_of_stalled {e : Execution} (deadline : Nat)
    (stands : r.adapter.call? t.call = some (.executing u w x (some e)))
    (wanted : r.adapter.state.isCancelled u = false)
    (stalled : ((r.turn (.wake t.call)).connection? w).any Connection.isStalled = true) :
    ∃ v : Sight, Watched (r.adapter.poll t.call v (decide (deadline ≤ r.now))) t
      (r.follow t deadline) := by
  have woken := adapter_turn_wake stands wanted
  have now := (turn_eq r (.wake t.call)).2
  unfold follow
  rw [stands]
  simp only [(isCancelled_eq stands).trans wanted, stalled, if_true, Bool.false_eq_true, if_false]
  generalize r.turn (.wake t.call) = r₁ at woken now ⊢
  let lost := if (r₁.connection? w).any Connection.hasEnded then some brokenPipe else none
  have same : lost.map Ending.lost =
      if (r₁.connection? w).any Connection.hasEnded then some (.lost brokenPipe) else none := by
    show Option.map _ (if _ then _ else _) = _
    split <;> rfl
  refine ⟨⟨false, lost⟩, ?_⟩
  rw [System.poll_of_goesOn (v := ⟨false, lost⟩) stands wanted stands, ← same, ← now]
  have stands₁ : r₁.adapter.call? t.call = some (.executing u w x (some e)) := by
    rw [woken]
    exact stands
  have waits := watched_tryAbandon lost (p := decide (deadline ≤ r₁.now)) (a := .running deadline)
    stands₁ (by rw [woken]; simp) rfl
  rw [woken] at waits
  exact waits

/-- All that has arrived from another one is taken, and if its pipes have come to their end it is asked
for its status. -/
theorem exists_watched_follow_of_listens {e : Execution} {b : Worker.Desk} (deadline : Nat)
    (stands : r.adapter.call? t.call = some (.executing u w x (some e)))
    (known : r.adapter.desks[w]? = some b) (wanted : r.adapter.state.isCancelled u = false)
    (listens : ((r.turn (.wake t.call)).connection? w).any Connection.isStalled = false) :
    ∃ v : Sight, Watched (r.adapter.poll t.call v (decide (deadline ≤ r.now))) t
      (r.follow t deadline) := by
  have woken := adapter_turn_wake stands wanted
  have now₀ := (turn_eq r (.wake t.call)).2
  unfold follow
  rw [stands]
  simp only [(isCancelled_eq stands).trans wanted, listens, Bool.false_eq_true, if_false, ← now₀]
  generalize r.turn (.wake t.call) = r₀ at woken
  obtain ⟨adapter, now⟩ := takeTimes_eq (r₀.unread w) r₀ (.receive t.call)
  have advanced (lost : Option String) :
      (r.adapter.wake t.call).advance t.call w (some e) ⟨true, lost⟩ =
        (takeTimes (r₀.unread w) r₀ (.receive t.call)).adapter := by
    rw [adapter, unread_eq, woken]
    rfl
  have moved := System.moves_advance (v := ⟨true, none⟩) stands known wanted
  rw [advanced none] at moved
  rw [← now]
  generalize takeTimes (r₀.unread w) r₀ (.receive t.call) = r₁ at advanced moved ⊢
  have wanted₁ : r₁.adapter.state.isCancelled u = false := moved.state ▸ wanted
  have awake₁ : t.call ∈ r₁.adapter.awake := by
    rw [moved.awake]
    simp
  have stands₁ := moved.stands
  generalize ((some e).getD (.start b.nextRequest x.budget)).takeAll _ = took at stands₁
  rcases took with ⟨e', _ | fault⟩
  · have goesOn (lost : Option String) :
        ((r.adapter.wake t.call).advance t.call w (some e) ⟨true, lost⟩).call? t.call =
          some (.executing u w x (some e')) := (advanced lost).symm ▸ stands₁
    rw [stands₁]
    cases r₁.isClosed w with
    | true =>
      obtain ⟨lost, watched⟩ := watched_lose (r₁.after Worker.statusGrace) deadline stands₁ wanted₁
      refine ⟨⟨true, lost⟩, ?_⟩
      rw [System.poll_of_goesOn stands wanted (goesOn lost), advanced]
      rw [System.wake_of_awake awake₁] at watched
      exact watched
    | false =>
      refine ⟨⟨true, none⟩, ?_⟩
      rw [System.poll_of_goesOn stands wanted (goesOn none), advanced]
      exact watched_tryAbandon none stands₁ awake₁ rfl
  · refine ⟨⟨true, none⟩, ?_⟩
    rw [System.poll_of_done stands wanted ((advanced none).symm ▸ stands₁), advanced, stands₁]
    exact watched_conclude stands₁

/-- A task that waits for its worker looks at its execution. -/
theorem exists_watched_follow {e : Execution} {b : Worker.Desk} (deadline : Nat)
    (stands : r.adapter.call? t.call = some (.executing u w x (some e)))
    (known : r.adapter.desks[w]? = some b) :
    ∃ v : Sight, Watched (r.adapter.poll t.call v (decide (deadline ≤ r.now))) t
      (r.follow t deadline) := by
  cases cancelled : r.adapter.state.isCancelled u with
  | true =>
    have stops : r.follow t deadline = r.concludeBy t (.abandon t.call .terminated) := by
      unfold follow
      rw [stands]
      exact if_pos ((isCancelled_eq stands).trans cancelled)
    exact ⟨⟨false, none⟩, stops ▸ watched_of_cancelled stands cancelled⟩
  | false =>
    cases stalled : ((r.turn (.wake t.call)).connection? w).any Connection.isStalled with
    | true => exact exists_watched_follow_of_stalled deadline stands cancelled stalled
    | false => exact exists_watched_follow_of_listens deadline stands known cancelled stalled

/-- The deadline of a task that waits for its worker, or for the status of its worker. -/
def deadline? : Activity → Option Nat
  | .running deadline | .losing _ deadline => some deadline
  | _ => none

/-- Whenever a task goes on, it looks at its execution once. -/
theorem exists_watched_poll {e : Execution} {b : Worker.Desk} {deadline : Nat}
    (waits : deadline? t.activity = some deadline)
    (stands : r.adapter.call? t.call = some (.executing u w x (some e)))
    (known : r.adapter.desks[w]? = some b) :
    ∃ v : Sight, Watched (r.adapter.poll t.call v (decide (deadline ≤ r.now))) t (r.poll t) := by
  unfold poll
  cases activity : t.activity with
  | running d =>
    rw [activity] at waits
    cases waits
    exact exists_watched_follow deadline stands known
  | losing grace d =>
    rw [activity] at waits
    cases waits
    exact exists_watched_lose grace deadline stands
  | _ =>
    rw [activity] at waits
    cases waits

/-! ## First looks -/

theorem feed_eq (r : Rehearsal) (w : WorkerId) (q : Wire.Request) :
    (r.feed w q).adapter = r.adapter ∧ (r.feed w q).now = r.now := by
  unfold feed
  split <;> exact ⟨rfl, rfl⟩

/-- A task that has just sent its request finds the pipe broken, or looks at its execution. -/
theorem exists_watched_feed {e : Execution} {b : Worker.Desk} (q : Wire.Request) (deadline : Nat)
    (stands : r.adapter.call? t.call = some (.executing u w x (some e)))
    (known : r.adapter.desks[w]? = some b) (wanted : r.adapter.state.isCancelled u = false)
    (awake : t.call ∈ r.adapter.awake) :
    ∃ v : Sight, Watched (r.adapter.poll t.call v (decide (deadline ≤ r.now))) t
      (if (r.connection? w).any Connection.hasEnded then
        r.concludeBy t (.abandon t.call (.lost brokenPipe))
      else (r.feed w q).follow t deadline) := by
  split
  · refine ⟨⟨false, some brokenPipe⟩, ?_⟩
    rw [System.poll_of_goesOn (v := ⟨false, some brokenPipe⟩) stands wanted stands,
      System.wake_of_awake awake]
    exact watched_abandon stands (System.mayEnd_of_awake awake rfl nofun)
  · obtain ⟨fed, still⟩ := feed_eq r w q
    have stands' : (r.feed w q).adapter.call? t.call = some (.executing u w x (some e)) := fed ▸ stands
    obtain ⟨v, watched⟩ := exists_watched_follow deadline stands' (fed ▸ known)
    rw [fed, still] at watched
    exact ⟨v, watched⟩

/-- A task that gets a worker sends its request and looks at its execution at once. -/
theorem exists_watched_execute {code : String} {budget : Option Budget} {s₀ : System}
    {language : String} {defaults : Budget}
    (reached : System.Runs (fun _ => True) (.new language defaults) r.adapter)
    (called : t.inBackground = false)
    (admitted : r.adapter.step (.execute t.number code budget) = some (s₀, none)) :
    ∃ v : Sight, Watched
      (s₀.poll t.call v (decide (r.after (budget.getD r.adapter.defaults).timeout ≤ r.now))) t
      (r.execute t code budget) := by
  have call : t.call = .caller t.number := by
    unfold Task.call
    rw [called]
    rfl
  obtain ⟨-, w, -, begun⟩ := System.admitted_cases admitted
  have stands : s₀.call? t.call = some (.executing r.adapter.state.ticket w
      ⟨code, budget.getD r.adapter.defaults⟩ none) := by
    rw [begun, call]
    exact System.call?_setCall_self ..
  have reached₀ := reached.next trivial admitted
  have known := reached₀.known stands rfl
  have wanted : s₀.state.isCancelled r.adapter.state.ticket = false := by
    rw [reached₀.isCancelled_eq stands rfl, begun]
    exact Adapter.State.isOutdated_eq_false_iff.2 rfl
  have awake : t.call ∈ (s₀.wake t.call).awake := by simp
  obtain ⟨sent, known'⟩ := System.moves_send (s := s₀.wake t.call) stands awake known
  -- the request is sent before the first look, which would begin with that
  let r₁ := (r.take (.execute t.number code budget)).1
  let r₂ := ((r₁.turn (.wake t.call)).take (.send t.call)).1
  have taken : r.take (.execute t.number code budget) = (r₁, none) := by
    show _ = ((r.take (.execute t.number code budget)).1, none)
    unfold take
    rw [admitted]
  have first : r₁.adapter = s₀ := (adapter_take ..).trans (System.take_eq admitted)
  have adapter : r₂.adapter = (s₀.wake t.call).take (.send t.call) := by
    rw [adapter_take, (turn_eq ..).1, first, System.take_wake stands wanted]
  have now : r₂.now = r.now := (now_take ..).trans ((turn_eq ..).2.trans (now_take ..))
  have later : r₂.after (budget.getD r.adapter.defaults).timeout =
      r.after (budget.getD r.adapter.defaults).timeout := by
    unfold after
    rw [now]
  rw [← adapter] at known'
  have stands₂ : r₂.adapter.call? t.call = _ := adapter ▸ sent.stands
  obtain ⟨v, watched⟩ := exists_watched_feed ⟨(s₀.desk w).nextRequest, code⟩
    (r₂.after (budget.getD r.adapter.defaults).timeout) stands₂ known' (adapter ▸ sent.state ▸ wanted)
    (adapter ▸ sent.awake ▸ awake)
  refine ⟨v, ?_⟩
  rw [later, now, adapter, System.poll_take_send stands wanted known] at watched
  have executed : r.execute t code budget =
      if (r₂.connection? w).any Connection.hasEnded then
        r₂.concludeBy t (.abandon t.call (.lost brokenPipe))
      else (r₂.feed w ⟨(s₀.desk w).nextRequest, code⟩).follow t
        (r₂.after (budget.getD r.adapter.defaults).timeout) := by
    have there : ((r₁.turn (.wake t.call)).take (.send t.call)).1.adapter.call? t.call = _ := stands₂
    unfold execute
    rw [taken]
    simp only [there]
    rfl
  rw [executed, later]
  exact watched

/-! ## Deadlines -/

/-- A deadline that was set is reached when all the time has gone by that was asked for, and not
before. -/
theorem after_le_iff {r' : Rehearsal} (later : r.now ≤ r'.now) (s : Span) :
    r.after s ≤ r'.now ↔ r.now * 1000000 + s.nanos ≤ r'.now * 1000000 := by
  unfold after Clock.alarm Clock.tick
  simp only
  omega

end SnippetRunner.Bench.Rehearsal
