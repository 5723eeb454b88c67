import SnippetRunner.Proofs.Adapter.Attribution
import SnippetRunner.Proofs.Adapter.Workers
import SnippetRunner.Proofs.Worker.Taking

/-!
# Looking at an execution

An execution goes on when it is looked at. It stops at once where a termination has overtaken it;
otherwise it wakes, its request is sent if it has not been, it takes the messages that have arrived, and
where it has not come to an end with them, its worker may be lost or its time may be up; or it rests
until the next look. Such a look is made of steps of the adapter.
-/

namespace SnippetRunner.Adapter.System

open Worker (Ending Execution)

/-! ## Looks -/

/-- A step is taken if it can be. -/
def take (s : System) (l : Label) : System := ((s.step l).map Prod.fst).getD s

/-- The same step is taken again and again. -/
def takeTimes : Nat → System → Label → System
  | 0, s, _ => s
  | n + 1, s, l => takeTimes n (s.take l) l

/-- What a look at an execution finds at its worker, besides what has arrived. -/
structure Sight where
  /-- The request has gone out to the worker, so that its messages are taken. -/
  listens : Bool
  /-- What is to be said of the worker if it has been lost: it did not take the request, or its pipes
  are closed and how it ended is known. -/
  lost : Option String

/-- The request of an execution is sent, unless it has been, and what has arrived is taken. -/
def advance (s : System) (c : CallId) (w : WorkerId) (e : Option Execution) (v : Sight) : System :=
  let s := if e.isNone then s.take (.send c) else s
  if v.listens then takeTimes (s.desk w).messages.length s (.receive c) else s

/-- An execution comes to another end than that its request is done, or it rests and goes on. -/
def tryAbandon (s : System) (c : CallId) (o : Option Ending) : System :=
  match o with
  | some ending => s.take (.abandon c ending)
  | none => s.take (.rest c)

/-- One look at an execution, which is nothing where it does not go on. -/
def poll (s : System) (c : CallId) (v : Sight) (isExpired : Bool) : System :=
  match s.call? c with
  | some (.executing t w _ e) =>
    if s.state.isCancelled t then s.take (.abandon c .terminated)
    else
      let s := (s.take (.wake c)).advance c w e v
      match s.call? c with
      | some (.executing _ _ _ _) =>
        s.tryAbandon c (Ending.choose false (v.lost.map .lost) isExpired)
      | _ => s
  | _ => s

/-! ## What a look sees -/

variable {s s' s₁ s₂ : System} {c : CallId} {t : Ticket} {w : WorkerId} {x : Errand}
  {e : Option Execution} {b : Worker.Desk} {v : Sight} {p : Bool} {l : Label}

/-- The number of the request of an execution, or the one that it will have. -/
def requestId (b : Worker.Desk) : Option Execution → Nat
  | none => b.nextRequest
  | some e => e.id

/-- What the execution has come to by itself when it is looked at: its request is done, or its worker
is lost. -/
def verdict? (s : System) (c : CallId) (v : Sight) : Option Ending :=
  match s.call? c with
  | some (.executing _ w _ e) =>
    let done :=
      if v.listens then
        (s.desk w).messages.findSome? (Worker.Message.done? (requestId (s.desk w) e))
      else none
    (done.map .done).or (v.lost.map .lost)
  | _ => none

/-- A call goes on under a ticket that is to stop. -/
def isStopped (s : System) (c : CallId) : Bool :=
  match s.call? c with
  | some k => k.duty.ticket?.any s.state.isCancelled
  | none => false

theorem isStopped_of_executing (stands : s.call? c = some (.executing t w x e)) :
    s.isStopped c = s.state.isCancelled t := by
  unfold isStopped
  rw [stands]
  rfl

/-- The messages that an execution takes when it is looked at. -/
def heard (s : System) (c : CallId) (v : Sight) : List Worker.Message :=
  match s.call? c with
  | some (.executing t w _ _) =>
    if !s.state.isCancelled t && v.listens then (s.desk w).messages else []
  | _ => []

/-! ## The steps of a look -/

/-- A step that a look at a call may take. -/
def Label.IsLook (c : CallId) (l : Label) : Prop :=
  l = .wake c ∨ l = .rest c ∨ l = .send c ∨ l = .receive c ∨ ∃ ending, l = .abandon c ending

/-- The system, seen from a call that stays awake: only the call itself and the desk of its worker may
differ. -/
structure Moves (c : CallId) (k : Call) (s s' : System) : Prop where
  run : Runs (Label.IsLook c) s s'
  stands : s'.call? c = some k
  state : s'.state = s.state
  awake : s'.awake = s.awake
  live : s'.live = s.live
  replacements : s'.replacements = s.replacements

namespace Moves

variable {k k' : Call}

theorem refl (stands : s.call? c = some k) : Moves c k s s := ⟨.refl, stands, rfl, rfl, rfl, rfl⟩

theorem trans (first : Moves c k s s₁) (second : Moves c k' s₁ s₂) : Moves c k' s s₂ where
  run := first.run.trans second.run
  stands := second.stands
  state := second.state.trans first.state
  awake := second.awake.trans first.awake
  live := second.live.trans first.live
  replacements := second.replacements.trans first.replacements

/-- A step of a call with the desk of its worker. -/
theorem of_step {d : Worker.Desk} {r : Option Reply} (look : l.IsLook c)
    (step : Step s l ((s.setDesk w d).setCall c k) r) : Moves c k s ((s.setDesk w d).setCall c k) :=
  ⟨.single look step, call?_setCall_self .., rfl, rfl, rfl, rfl⟩

end Moves

/-- A step that is taken where it can be. -/
theorem take_eq {r : Option Reply} (step : s.step l = some (s', r)) : s.take l = s' := by
  unfold take
  rw [step]
  rfl

/-- An execution that is not to stop wakes. -/
theorem take_wake (stands : s.call? c = some (.executing t w x e))
    (wanted : s.state.isCancelled t = false) : s.take (.wake c) = s.wake c :=
  take_eq (Step.wake stands rfl wanted).step_eq

/-- The request of an execution is sent. -/
theorem moves_send (stands : s.call? c = some (.executing t w x none)) (awake : c ∈ s.awake)
    (known : s.desks[w]? = some b) :
    Moves c (.executing t w x (some (.start b.nextRequest x.budget))) s (s.take (.send c)) ∧
      (s.take (.send c)).desks[w]? = some (b.send x.code x.budget).2 := by
  have inside : w < s.desks.length := (List.getElem?_eq_some_iff.1 known).1
  have sent : s.send c t w x = some ((s.setDesk w (b.send x.code x.budget).2).setCall c
      (.executing t w x (some (b.send x.code x.budget).1))) := by
    unfold send
    rw [known]
    rfl
  have step := Step.send stands awake sent
  rw [take_eq step.step_eq]
  exact ⟨.of_step (by simp [Label.IsLook]) step, List.getElem?_set_self inside⟩

/-- A step that is refused is refused again and again. -/
theorem takeTimes_of_refused (refused : s.step l = none) (n : Nat) : takeTimes n s l = s := by
  have same : s.take l = s := by
    unfold take
    rw [refused]
    rfl
  induction n with
  | zero => rfl
  | succ n ih =>
    show takeTimes n (s.take l) l = s
    rw [same, ih]

/-- Where an execution stands that has taken some messages. -/
def placeOf (t : Ticket) (w : WorkerId) (x : Errand) : Execution × Option (Option Fault) → Call
  | (e, none) => .executing t w x (some e)
  | (e, some fault) => .executed t w x (some e) (.done fault)

/-- An execution takes the next message, and what is queued behind it if its request is done. -/
theorem moves_receive {e : Execution} {m : Worker.Message} {ms : List Worker.Message}
    (stands : s.call? c = some (.executing t w x (some e))) (awake : c ∈ s.awake)
    (known : s.desks[w]? = some b) (messages : b.messages = m :: ms) :
    ((e.receive m).2 = none →
      Moves c (.executing t w x (some (e.receive m).1)) s (s.take (.receive c)) ∧
      (s.take (.receive c)).desks[w]? = some { b with messages := ms }) ∧
    ∀ fault, (e.receive m).2 = some fault →
      Moves c (.executed t w x (some ((e.receive m).1.drain ms)) (.done fault)) s
        (s.take (.receive c)) := by
  have inside : w < s.desks.length := (List.getElem?_eq_some_iff.1 known).1
  rcases hm : e.receive m with ⟨e', _ | fault⟩
  · have took : s.receive c t w x e = some ((s.setDesk w { b with messages := ms }).setCall c
        (.executing t w x (some e'))) := by
      unfold receive
      rw [known, Option.bind_eq_bind, Option.bind_some, Worker.Desk.receive_of_cons messages hm]
      rfl
    have step := Step.receive stands awake took
    rw [take_eq step.step_eq]
    exact ⟨fun _ => ⟨.of_step (by simp [Label.IsLook]) step, List.getElem?_set_self inside⟩, nofun⟩
  · have took : s.receive c t w x e = some ((s.setDesk w { b with messages := [] }).setCall c
        (.executed t w x (some (e'.drain ms)) (.done fault))) := by
      unfold receive
      rw [known, Option.bind_eq_bind, Option.bind_some, Worker.Desk.receive_of_done messages hm]
      rfl
    have step := Step.receive stands awake took
    rw [take_eq step.step_eq]
    refine ⟨nofun, ?_⟩
    intro f same
    cases same
    exact .of_step (by simp [Label.IsLook]) step

/-- An execution takes all messages that have arrived. -/
theorem moves_takeTimes {e : Execution} (stands : s.call? c = some (.executing t w x (some e)))
    (awake : c ∈ s.awake) (known : s.desks[w]? = some b) :
    Moves c (placeOf t w x (e.takeAll b.messages)) s
      (takeTimes b.messages.length s (.receive c)) := by
  generalize messages : b.messages = ms
  -- each step takes the first message, and none is taken behind the one that ends the execution
  induction ms generalizing s e b with
  | nil => exact .refl stands
  | cons m ms ih =>
    obtain ⟨onward, ended⟩ := moves_receive stands awake known messages
    show Moves c _ s (takeTimes ms.length (s.take (.receive c)) (.receive c))
    unfold Execution.takeAll
    rcases took : e.receive m with ⟨e', _ | fault⟩
    · rw [took] at onward
      obtain ⟨first, known'⟩ := onward rfl
      exact first.trans (ih first.stands (first.awake ▸ awake) known' rfl)
    · rw [took] at ended
      have last := ended fault rfl
      have refused : (s.take (.receive c)).step (.receive c) = none := by
        simp [step, last.stands]
      rw [takeTimes_of_refused refused]
      exact last

/-! ## What a look does -/

/-- An execution has been looked at: it goes on or has come to an end, with what it has got by then. Its
worker is killed if its time was up, and nothing else changes for others. -/
structure Looked (s : System) (c : CallId) (t : Ticket) (w : WorkerId) (x : Errand)
    (e : Option Execution) (outcome : Option Ending) (s' : System) : Prop where
  run : Runs (Label.IsLook c) s s'
  stands : s'.call? c = some (outcome.elim (.executing t w x e) (.executed t w x e))
  state : s'.state = s.state
  live : s'.live = (s.kill (if outcome = some .outOfTime then some w else none)).live
  replacements : s'.replacements = s.replacements

namespace Moves

variable {ending : Ending}

/-- The request of an execution is done with what it has taken. -/
theorem done {fault : Option Fault} (h : Moves c (.executed t w x e (.done fault)) s s') :
    Looked s c t w x e (some (.done fault)) s' := by
  refine ⟨h.run, h.stands, h.state, ?_, h.replacements⟩
  rw [if_neg nofun, kill_none]
  exact h.live

/-- It rests after what it has done. -/
theorem rest (h : Moves c (.executing t w x e) s s') (awake : c ∈ s.awake) :
    Looked s c t w x e none (s'.take (.rest c)) := by
  have step := Step.rest h.stands rfl (h.awake ▸ awake)
  rw [take_eq step.step_eq]
  refine ⟨h.run.trans (.single (by simp [Label.IsLook]) step), h.stands, h.state, ?_, h.replacements⟩
  rw [if_neg nofun, kill_none]
  exact h.live

/-- It comes to another end after what it has done. -/
theorem abandon (h : Moves c (.executing t w x e) s s') (may : s'.mayEnd c t ending = true) :
    Looked s c t w x e (some ending) (s'.take (.abandon c ending)) := by
  have step := Step.abandon h.stands may
  rw [take_eq step.step_eq]
  refine ⟨h.run.trans (.single (by simp [Label.IsLook]) step), call?_setCall_self .., h.state, ?_,
    h.replacements⟩
  show (s'.kill (if ending = .outOfTime then some w else none)).live = _
  simp only [Option.some.injEq]
  unfold kill
  simp only [h.live]

end Moves

/-- A look begins when the execution wakes. -/
theorem Looked.of_wake {outcome : Option Ending} {e' : Option Execution}
    (h : Looked (s.wake c) c t w x e' outcome s') (stands : s.call? c = some (.executing t w x e))
    (wanted : s.state.isCancelled t = false) : Looked s c t w x e' outcome s' where
  run := (Runs.single (by simp [Label.IsLook]) (Step.wake stands rfl wanted)).trans h.run
  stands := h.stands
  state := h.state
  live := h.live
  replacements := h.replacements

/-- What an execution has got that has been looked at. -/
structure Got (id : Nat) (x : Errand) (taken : List Worker.Message) (e : Option Execution)
    (outcome : Option Ending) : Prop where
  goesOn : outcome = none → e.isSome = true ∧ Execution.Gathers id x.budget taken e
  output : (x.transcript e).output = Worker.captured id x.budget taken

/-- The messages that an execution takes that is not to stop. -/
theorem heard_of_wanted (stands : s.call? c = some (.executing t w x e)) (known : s.desks[w]? = some b)
    (wanted : s.state.isCancelled t = false) : s.heard c v = if v.listens then b.messages else [] := by
  unfold heard
  rw [stands]
  simp only [wanted, desk_of_known known, Bool.not_false, Bool.true_and]

/-- What such an execution has come to by itself. -/
theorem verdict?_of_wanted (stands : s.call? c = some (.executing t w x e))
    (known : s.desks[w]? = some b) (wanted : s.state.isCancelled t = false) :
    s.verdict? c v = (((s.heard c v).findSome? (Worker.Message.done? (requestId b e))).map .done).or
      (v.lost.map .lost) := by
  rw [heard_of_wanted stands known wanted]
  unfold verdict?
  rw [stands]
  simp only [desk_of_known known]
  cases v.listens <;> rfl

/-- An execution that is not to stop is sent when it has woken, and takes what has arrived. -/
theorem moves_advance (stands : s.call? c = some (.executing t w x e)) (known : s.desks[w]? = some b)
    (wanted : s.state.isCancelled t = false) :
    Moves c (placeOf t w x ((e.getD (.start b.nextRequest x.budget)).takeAll (s.heard c v))) (s.wake c)
      ((s.wake c).advance c w e v) := by
  rw [heard_of_wanted stands known wanted]
  have awake : c ∈ (s.wake c).awake := by simp
  have stands : (s.wake c).call? c = some (.executing t w x e) := stands
  have known : (s.wake c).desks[w]? = some b := known
  generalize s.wake c = s at awake stands known ⊢
  unfold advance
  cases e with
  | none =>
    obtain ⟨sent, known'⟩ := moves_send stands awake known
    cases v.listens with
    | false => exact sent
    | true =>
      have took := moves_takeTimes sent.stands (sent.awake ▸ awake) known'
      show Moves c _ s
        (takeTimes ((s.take (.send c)).desk w).messages.length (s.take (.send c)) (.receive c))
      rw [desk_of_known known']
      exact sent.trans took
  | some e =>
    cases v.listens with
    | false => exact .refl stands
    | true =>
      show Moves c _ s (takeTimes (s.desk w).messages.length s (.receive c))
      rw [desk_of_known known]
      exact moves_takeTimes stands awake known

/-- A look at an execution that a termination has overtaken takes one step. -/
theorem poll_of_cancelled (stands : s.call? c = some (.executing t w x e))
    (cancelled : s.state.isCancelled t = true) : s.poll c v p = s.take (.abandon c .terminated) := by
  unfold poll
  rw [stands]
  exact if_pos cancelled

/-- Where the request is done with what has arrived, that is all. -/
theorem poll_of_done {e' : Option Execution} {ending : Ending}
    (stands : s.call? c = some (.executing t w x e)) (wanted : s.state.isCancelled t = false)
    (done : ((s.wake c).advance c w e v).call? c = some (.executed t w x e' ending)) :
    s.poll c v p = (s.wake c).advance c w e v := by
  unfold poll
  rw [stands]
  simp only [wanted, take_wake stands wanted, done, Bool.false_eq_true, if_false]

/-- Otherwise the execution may come to another end. -/
theorem poll_of_goesOn {e' : Option Execution} (stands : s.call? c = some (.executing t w x e))
    (wanted : s.state.isCancelled t = false)
    (goesOn : ((s.wake c).advance c w e v).call? c = some (.executing t w x e')) :
    s.poll c v p =
      ((s.wake c).advance c w e v).tryAbandon c (Ending.choose false (v.lost.map .lost) p) := by
  unfold poll
  rw [stands]
  simp only [wanted, take_wake stands wanted, goesOn, Bool.false_eq_true, if_false]

/-- A look at an execution that has come to its end is nothing. -/
theorem poll_of_executed {ending : Ending} (stands : s.call? c = some (.executed t w x e ending)) :
    s.poll c v p = s := by
  unfold poll
  rw [stands]

/-- Where the request has not been sent, a look begins with that once the execution has woken. -/
theorem poll_take_send (stands : s.call? c = some (.executing t w x none))
    (wanted : s.state.isCancelled t = false) (known : s.desks[w]? = some b) :
    ((s.wake c).take (.send c)).poll c v p = s.poll c v p := by
  have awake : c ∈ (s.wake c).awake := by simp
  obtain ⟨sent, -⟩ := moves_send (s := s.wake c) stands awake known
  have wanted' : ((s.wake c).take (.send c)).state.isCancelled t = false := sent.state ▸ wanted
  -- it is awake by then, so that it does not wake again
  have still := (take_wake sent.stands wanted').trans (wake_of_awake (sent.awake ▸ awake))
  unfold poll
  rw [stands, sent.stands]
  simp only [wanted, wanted', still, take_wake stands wanted, Bool.false_eq_true, if_false]
  rfl

/-- An execution that is awake may come to the end that is chosen while no termination has overtaken
it. -/
theorem mayEnd_of_choose {lost : Option String} {ending : Ending} (awake : c ∈ s.awake)
    (chosen : Ending.choose false (lost.map .lost) p = some ending) : s.mayEnd c t ending = true := by
  rcases Ending.choose_eq_some_iff.1 chosen with ⟨stop, -⟩ | ⟨-, is⟩ | ⟨-, -, -, rfl⟩
  · cases stop
  · obtain ⟨detail, -, rfl⟩ := Option.map_eq_some_iff.1 is
    exact mayEnd_of_awake awake rfl nofun
  · exact mayEnd_of_awake awake rfl nofun

/-- A look at an execution that a termination has overtaken ends it at once. -/
theorem looked_poll_of_cancelled (stands : s.call? c = some (.executing t w x e))
    (cancelled : s.state.isCancelled t = true) :
    Looked s c t w x e (some .terminated) (s.poll c v p) := by
  rw [poll_of_cancelled stands cancelled]
  exact (Moves.refl stands).abandon cancelled

/-- A look at another one ends it where its request is done, its worker is lost or its time is up. -/
theorem looked_poll_of_wanted {e' : Execution} {done : Option (Option Fault)}
    (stands : s.call? c = some (.executing t w x e)) (known : s.desks[w]? = some b)
    (wanted : s.state.isCancelled t = false)
    (took : (e.getD (.start b.nextRequest x.budget)).takeAll (s.heard c v) = (e', done)) :
    Looked s c t w x (some e')
      (Ending.choose false ((done.map .done).or (v.lost.map .lost)) p) (s.poll c v p) := by
  have awake : c ∈ (s.wake c).awake := by simp
  have moved := moves_advance (v := v) stands known wanted
  rw [took] at moved
  refine Looked.of_wake ?_ stands wanted
  cases done with
  | some fault =>
    rw [poll_of_done stands wanted moved.stands]
    exact moved.done
  | none =>
    rw [poll_of_goesOn stands wanted moved.stands]
    simp only [Option.map_none, Option.none_or]
    cases chosen : Ending.choose false (v.lost.map .lost) p with
    | none => exact moved.rest awake
    | some ending => exact moved.abandon (mayEnd_of_choose (moved.awake ▸ awake) chosen)

/-- Whatever a look at an execution finds, it is made of steps of the adapter; and it ends the execution
if a termination has overtaken it or its time is up. -/
theorem exists_looked_poll (stands : s.call? c = some (.executing t w x e))
    (known : s.desks[w]? = some b) :
    ∃ e' outcome, Looked s c t w x e' outcome (s.poll c v p) ∧
      (s.isStopped c = true ∨ p = true → outcome.isSome = true) := by
  cases cancelled : s.state.isCancelled t with
  | true => exact ⟨e, _, looked_poll_of_cancelled stands cancelled, fun _ => rfl⟩
  | false =>
    refine ⟨_, _, looked_poll_of_wanted stands known cancelled rfl, ?_⟩
    intro due
    have late : p = true := by
      rcases due with stopped | late
      · rw [isStopped_of_executing stands, cancelled] at stopped
        cases stopped
      · exact late
    subst late
    generalize (Option.map Ending.done _).or _ = verdict
    cases verdict <;> rfl

/-- One look at an execution that has gathered what it has taken. It comes to the end that is chosen of
what there is to see, or goes on; and what it takes adds to what is kept of its output. -/
theorem looked_poll {id : Nat} {taken : List Worker.Message}
    (stands : s.call? c = some (.executing t w x e)) (known : s.desks[w]? = some b)
    (gathers : Execution.Gathers id x.budget taken e) (number : e = none → b.nextRequest = id) :
    ∃ e', Looked s c t w x e' (Ending.choose (s.isStopped c) (s.verdict? c v) p) (s.poll c v p) ∧
      Got id x (taken ++ s.heard c v) e' (Ending.choose (s.isStopped c) (s.verdict? c v) p) := by
  obtain ⟨first, whole⟩ := gathers.getD
  rw [isStopped_of_executing stands]
  cases cancelled : s.state.isCancelled t with
  | true =>
    -- a termination goes first: nothing is taken any more
    have nothing : s.heard c v = [] := by
      unfold heard
      rw [stands]
      simp only [cancelled, Bool.not_true, Bool.false_and, Bool.false_eq_true, if_false]
    refine ⟨e, looked_poll_of_cancelled stands cancelled, nofun, ?_⟩
    rw [nothing, List.append_nil, Worker.Execution.captured_of_isFirst first, ← whole]
    cases e <;> rfl
  | false =>
    have number : requestId b e = id := by
      cases e with
      | none => exact number rfl
      | some e => rw [gathers.2]; rfl
    have begun : e.getD (.start b.nextRequest x.budget) = .gathered id x.budget taken := by
      cases e with
      | none => rw [← whole, ← number]; rfl
      | some e => exact gathers.2
    subst number
    have looked := looked_poll_of_wanted (v := v) (p := p) stands known cancelled rfl
    obtain ⟨done, output, onward⟩ :=
      Worker.Execution.takeAll_gathered (b := x.budget) first (s.heard c v)
    rw [begun, done, ← verdict?_of_wanted stands known cancelled] at looked
    refine ⟨_, looked, ?_, output⟩
    intro goesOn
    have quiet : s.verdict? c v = none := by
      cases verdict : s.verdict? c v with
      | none => rfl
      | some ending => rw [verdict] at goesOn; cases goesOn
    rw [verdict?_of_wanted stands known cancelled, Option.or_eq_none_iff,
      Option.map_eq_none_iff] at quiet
    obtain ⟨same, longer⟩ := onward quiet.1
    exact ⟨rfl, longer, same⟩

end SnippetRunner.Adapter.System
