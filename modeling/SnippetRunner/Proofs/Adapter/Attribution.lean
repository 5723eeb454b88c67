import SnippetRunner.Proofs.Adapter.Holders

/-!
# Whose output is whose

A run with a record of what has been done with which worker. Whatever the workers write and however
the calls take their steps, the record of each worker is a row of exchanges with the numbers from one
on: a call gets the worker when the request before its own is done and reported, and has it sent; an
execution ends with the first event that its own request is done, and its report holds what was written
for it in between, within the budget that the call was made with. Every message that has arrived has
been taken once, or still waits.
-/

namespace SnippetRunner.Adapter.System

open Worker (Deed Listening Idle Lent Working Finished Orderly Faithful)

variable {s s' : System} {c : CallId} {w : WorkerId} {k k' : Call} {l : Label} {r : Option Reply}

/-! ## Records of runs -/

/-- The end of the line to a worker; where there has been no such worker, nothing has happened. -/
def desk (s : System) (w : WorkerId) : Worker.Desk := s.desks[w]?.getD .start

/-- What a step does with a worker, by its label and the reply that it gives. -/
def deeds (s : System) (l : Label) (r : Option Reply) : Option (WorkerId × List Deed) :=
  match l with
  | .deliver w m => some (w, [.arrived m])
  | .listen c =>
    match s.call? c with
    | some (.readying _ w _) => (s.desk w).messages.head?.map fun m => (w, [.heard m])
    | _ => none
  | .execute _ code b =>
    -- a call that does not return at once has got the worker of the adapter
    match r, s.state.worker with
    | none, some w => some (w, [.lent code (b.getD s.defaults)])
    | _, _ => none
  | .send c =>
    match s.call? c with
    | some (.executing _ w x _) => some (w, [.sent ⟨(s.desk w).nextRequest, x.code⟩])
    | _ => none
  | .receive c =>
    match s.call? c with
    | some (.executing _ w _ (some e)) =>
      match (s.desk w).messages with
      | [] => none
      | m :: ms => some (w, .took m :: if (e.receive m).2.isSome then [.drained ms] else [])
    | _ => none
  | .settle c =>
    match s.call? c, r with
    | some (.executed _ w _ _ (.done _)), some (.executed (.ok q)) => some (w, [.reported q])
    | _, _ => none
  | _ => none

/-- A run with everything that has been done with its workers. -/
inductive Recorded (s : System) : System → List (WorkerId × List Deed) → Prop where
  | start : Recorded s s []
  | next {s₁ s₂ l r log} (run : Recorded s s₁ log) (step : s₁.step l = some (s₂, r)) :
    Recorded s s₂ (log ++ (s₁.deeds l r).toList)

/-- The record of one worker. -/
def recordOf (log : List (WorkerId × List Deed)) (w : WorkerId) : List Deed :=
  log.flatMap fun e => if e.1 = w then e.2 else []

/-- What the host has done with a worker, without what has arrived. -/
def ownDeeds (log : List (WorkerId × List Deed)) (w : WorkerId) : List Deed :=
  (recordOf log w).filter Deed.isOwn

section
variable {log : List (WorkerId × List Deed)} {ds : List Deed} {b : Worker.Desk}

theorem desk_of_known (known : s.desks[w]? = some b) : s.desk w = b := by
  unfold desk
  rw [known]
  rfl

/-! What the steps do with workers, by the cases in which they do something. -/

section
variable {t : Ticket} {x : Errand} {e : Option Worker.Execution} {m : Worker.Message}
  {ms : List Worker.Message}

theorem deeds_listen {u : Worker.Startup} (stands : s.call? c = some (.readying t w u))
    (known : s.desks[w]? = some b) (hms : b.messages = m :: ms) :
    s.deeds (.listen c) r = some (w, [.heard m]) := by
  unfold deeds
  simp only [stands, desk_of_known known, hms]
  rfl

theorem deeds_execute {n : Nat} {code : String} {budget : Option Budget}
    (slot : s.state.worker = some w) :
    s.deeds (.execute n code budget) none = some (w, [.lent code (budget.getD s.defaults)]) := by
  unfold deeds
  simp only [slot]

theorem deeds_execute_refused {n : Nat} {code : String} {budget : Option Budget} {q : Reply} :
    s.deeds (.execute n code budget) (some q) = none := by
  unfold deeds
  rfl

theorem deeds_send (stands : s.call? c = some (.executing t w x e))
    (known : s.desks[w]? = some b) :
    s.deeds (.send c) r = some (w, [.sent ⟨b.nextRequest, x.code⟩]) := by
  unfold deeds
  simp only [stands, desk_of_known known]

theorem deeds_receive {e e' : Worker.Execution}
    (stands : s.call? c = some (.executing t w x (some e))) (known : s.desks[w]? = some b)
    (hms : b.messages = m :: ms) (hm : e.receive m = (e', none)) :
    s.deeds (.receive c) r = some (w, [.took m]) := by
  unfold deeds
  simp only [stands, desk_of_known known, hms, hm]
  rfl

theorem deeds_receive_done {e e' : Worker.Execution} {fault : Option Fault}
    (stands : s.call? c = some (.executing t w x (some e))) (known : s.desks[w]? = some b)
    (hms : b.messages = m :: ms) (hm : e.receive m = (e', some fault)) :
    s.deeds (.receive c) r = some (w, [.took m, .drained ms]) := by
  unfold deeds
  simp only [stands, desk_of_known known, hms, hm]
  rfl

theorem deeds_settleStart {q : Except Failure WorkerId} (stands : s.call? c = some (.started t q)) :
    s.deeds (.settle c) r = none := by
  unfold deeds
  simp only [stands]

theorem deeds_settle_done {fault : Option Fault} {q : Report}
    (stands : s.call? c = some (.executed t w x e (.done fault))) :
    s.deeds (.settle c) (some (.executed (.ok q))) = some (w, [.reported q]) := by
  unfold deeds
  simp only [stands]

theorem deeds_settle_lost {ending : Worker.Ending}
    (stands : s.call? c = some (.executed t w x e ending)) (lost : ending.keepsWorker = false) :
    s.deeds (.settle c) r = none := by
  unfold deeds
  simp only [stands]
  cases ending with
  | done fault => cases lost
  | lost detail => rfl
  | terminated => rfl
  | outOfTime => rfl

end

/-- Only the record of the worker grows with which something is done. -/
theorem recordOf_append (log : List (WorkerId × List Deed)) (w : WorkerId) (ds : List Deed) :
    recordOf (log ++ [(w, ds)]) = Function.update (recordOf log) w (recordOf log w ++ ds) := by
  funext v
  by_cases same : v = w
  · subst same
    simp [recordOf]
  · rw [Function.update_of_ne same]
    simp [recordOf, Ne.symm same]

theorem ownDeeds_append (log : List (WorkerId × List Deed)) (w : WorkerId) (ds : List Deed) :
    ownDeeds (log ++ [(w, ds)]) =
      Function.update (ownDeeds log) w (ownDeeds log w ++ ds.filter Deed.isOwn) := by
  funext v
  unfold ownDeeds
  rw [recordOf_append]
  by_cases same : v = w
  · subst same
    rw [Function.update_self, Function.update_self, List.filter_append]
  · rw [Function.update_of_ne same, Function.update_of_ne same]

/-- What arrives is nothing that the host does. -/
theorem ownDeeds_arrived (log : List (WorkerId × List Deed)) (w : WorkerId) (m : Worker.Message) :
    ownDeeds (log ++ [(w, [.arrived m])]) = ownDeeds log := by
  have none : [Deed.arrived m].filter Deed.isOwn = [] := rfl
  rw [ownDeeds_append, none, List.append_nil, Function.update_eq_self]

theorem setDesk_self (known : s.desks[w]? = some b) : s.setDesk w b = s := by
  obtain ⟨inside, rfl⟩ := List.getElem?_eq_some_iff.1 known
  unfold setDesk
  rw [List.set_getElem_self]

end

/-! ## Records fit -/

/-- The records of all workers are orderly, each fits the place of its holder, and no two holders
have the same worker. -/
structure Kept (s : System) (records : WorkerId → List Deed) : Prop where
  fresh : ∀ w, s.desks.length ≤ w → records w = []
  orderly : ∀ w, Orderly (records w)
  fits : ∀ h k w, s.Holds h k w →
    ∃ b, s.desks[w]? = some b ∧ k.Fits b.nextRequest (records w)
  unique : ∀ h h' k k' w, s.Holds h k w → s.Holds h' k' w → h = h'

namespace Kept

variable {records : WorkerId → List Deed} {log : List (WorkerId × List Deed)} {b b' : Worker.Desk}
  {ds : List Deed} {t : Ticket} {x : Errand} {e : Option Worker.Execution}

/-- Nothing has been done at first. -/
theorem new (language : String) (defaults : Budget) :
    Kept (System.new language defaults) (ownDeeds []) := by
  have nobody (h : Option CallId) (k : Call) (w : WorkerId)
      (holds : (System.new language defaults).Holds h k w) : False := by
    obtain ⟨hk, -⟩ := holds
    cases h <;> cases hk
  refine ⟨fun _ _ => rfl, fun _ => Listening.start.orderly, ?_, ?_⟩
  · intro h k w holds
    exact (nobody h k w holds).elim
  · intro h _ k _ w holds _
    exact (nobody h k w holds).elim

/-- Workers are carried from one holder to another, and nothing is done with them. -/
theorem carry (h : Kept s records) (carries : Carries s s')
    (len : s'.desks.length = s.desks.length)
    (same : ∀ (w : WorkerId) (b : Worker.Desk), s.desks[w]? = some b →
      ∃ b' : Worker.Desk, s'.desks[w]? = some b' ∧ b'.nextRequest = b.nextRequest) :
    Kept s' records := by
  obtain ⟨f, inj, had⟩ := carries
  refine ⟨fun w hw => h.fresh w (len ▸ hw), h.orderly, ?_, ?_⟩
  · intro i k' w hk'
    obtain ⟨k, hk, leads⟩ := had i k' w hk'
    obtain ⟨b, known, fits⟩ := h.fits _ k w hk
    obtain ⟨b', known', next⟩ := same w b known
    exact ⟨b', known', next ▸ leads _ _ fits⟩
  · intro i j k k' w hk hk'
    obtain ⟨q, hq, -⟩ := had i k w hk
    obtain ⟨q', hq', -⟩ := had j k' w hk'
    exact inj (h.unique _ _ q q' w hq hq')

/-- A step that does nothing with a worker. -/
theorem pass (h : Kept s (ownDeeds log)) (carries : Carries s s') (desks : s'.desks = s.desks)
    (nothing : s.deeds l r = none) : Kept s' (ownDeeds (log ++ (s.deeds l r).toList)) := by
  rw [nothing, Option.toList_none, List.append_nil]
  exact h.carry carries (by rw [desks]) fun w b known => ⟨b, by rw [desks, known], rfl⟩

/-- The holder of a worker does something with it. -/
theorem act (h : Kept s (ownDeeds log)) (stands : s.call? c = some k) (has : k.worker? = some w)
    (known : s.desks[w]? = some b) (has' : k'.worker? = some w)
    (fits : k.Fits b.nextRequest (ownDeeds log w) →
      k'.Fits b'.nextRequest (ownDeeds log w ++ ds.filter Deed.isOwn))
    (orderly : k'.Fits b'.nextRequest (ownDeeds log w ++ ds.filter Deed.isOwn) →
      Orderly (ownDeeds log w ++ ds.filter Deed.isOwn)) :
    Kept ((s.setDesk w b').setCall c k') (ownDeeds (log ++ [(w, ds)])) := by
  rw [ownDeeds_append]
  have holds : s.Holds (some c) k w := ⟨stands, has⟩
  have inside : w < s.desks.length := (List.getElem?_eq_some_iff.1 known).1
  have now : k'.Fits b'.nextRequest (ownDeeds log w ++ ds.filter Deed.isOwn) := by
    obtain ⟨b₁, known₁, fits₁⟩ := h.fits _ k w holds
    rw [known] at known₁
    cases known₁
    exact fits fits₁
  have before (i : Option CallId) (q : Call) (v : WorkerId)
      (hi : ((s.setDesk w b').setCall c k').Holds i q v) :
      (i = some c ∧ q = k' ∧ v = w) ∨ (i ≠ some c ∧ s.Holds i q v) := by
    rcases hi.of_setCall with ⟨rfl, rfl⟩ | old
    · exact .inl ⟨rfl, rfl, Option.some.inj (hi.2.symm.trans has')⟩
    · exact .inr old
  -- and nobody but the acting call has this worker
  have other {i : Option CallId} {q : Call} {v : WorkerId} (hne : i ≠ some c)
      (old : s.Holds i q v) : v ≠ w := by
    intro same
    subst same
    exact hne (h.unique _ _ _ _ _ old holds)
  refine ⟨?_, ?_, ?_, ?_⟩
  · intro v hv
    have len : (s.desks.set w b').length = s.desks.length := List.length_set
    have outside : s.desks.length ≤ v := len ▸ hv
    have hne : v ≠ w := fun hvw => absurd (hvw ▸ inside) (Nat.not_lt.2 outside)
    rw [Function.update_of_ne hne]
    exact h.fresh v outside
  · intro v
    by_cases same : v = w
    · subst same
      rw [Function.update_self]
      exact orderly now
    · rw [Function.update_of_ne same]
      exact h.orderly v
  · intro i q v hi
    rcases before i q v hi with ⟨-, rfl, rfl⟩ | ⟨hne, old⟩
    · rw [Function.update_self]
      exact ⟨b', List.getElem?_set_self inside, now⟩
    · obtain ⟨b₁, known₁, fits₁⟩ := h.fits _ q v old
      rw [Function.update_of_ne (other hne old)]
      have still : (s.desks.set w b')[v]? = some b₁ := by
        rw [List.getElem?_set_ne (other hne old).symm, known₁]
      exact ⟨b₁, still, fits₁⟩
  · intro i j q q' v hi hj
    rcases before i q v hi with ⟨rfl, -, rfl⟩ | ⟨hi', old⟩
    · rcases before j q' v hj with ⟨rfl, -, -⟩ | ⟨hj', old'⟩
      · rfl
      · exact absurd rfl (other hj' old')
    · rcases before j q' v hj with ⟨rfl, -, rfl⟩ | ⟨hj', old'⟩
      · exact absurd rfl (other hi' old)
      · exact h.unique _ _ _ _ _ old old'

/-- The worker of a start begins to run, under a number that no other worker has. -/
theorem launch (h : Kept s (ownDeeds log)) :
    Kept (s.launch c t) (ownDeeds log) := by
  -- the call has the new worker, and whoever has another one had it before
  have before (i : Option CallId) (q : Call) (v : WorkerId) (hi : (s.launch c t).Holds i q v) :
      (i = some c ∧ q = .readying t v .start ∧ v = s.desks.length) ∨
        (i ≠ some c ∧ s.Holds i q v ∧ v < s.desks.length) := by
    rcases hi.of_setCall with ⟨rfl, rfl⟩ | ⟨hne, old⟩
    · have first : s.desks.length = v := Option.some.inj hi.2
      subst first
      exact .inl ⟨rfl, rfl, rfl⟩
    · obtain ⟨b, known, -⟩ := h.fits _ _ _ old
      exact .inr ⟨hne, old, (List.getElem?_eq_some_iff.1 known).1⟩
  refine ⟨?_, h.orderly, ?_, ?_⟩
  · intro v hv
    have len : (s.desks ++ [Worker.Desk.start]).length = s.desks.length + 1 := List.length_append
    have beyond : s.desks.length + 1 ≤ v := len ▸ hv
    exact h.fresh v (Nat.le_of_succ_le beyond)
  · intro i q v hi
    rcases before i q v hi with ⟨-, rfl, rfl⟩ | ⟨-, old, inside⟩
    · refine ⟨.start, List.getElem?_concat_length, ?_⟩
      rw [h.fresh _ (Nat.le_refl _)]
      exact Listening.start
    · obtain ⟨b, known, fits⟩ := h.fits _ _ _ old
      exact ⟨b, (List.getElem?_append_left inside).trans known, fits⟩
  · intro i j q q' v hi hj
    rcases before i q v hi with ⟨rfl, -, rfl⟩ | ⟨-, old, inside⟩
    · rcases before j q' _ hj with ⟨rfl, -, -⟩ | ⟨-, -, inside⟩
      · rfl
      · exact absurd inside (Nat.lt_irrefl _)
    · rcases before j q' v hj with ⟨rfl, -, rfl⟩ | ⟨-, old', -⟩
      · exact absurd inside (Nat.lt_irrefl _)
      · exact h.unique _ _ _ _ _ old old'

/-- An execution that is done is reported, and its worker waits for the next request. -/
theorem report {fault : Option Fault} {e : Option Worker.Execution}
    (h : Kept s (ownDeeds log)) (stands : s.call? c = some (.executed t w x e (.done fault)))
    (deed : s.deeds l r = some (w, [.reported ((Worker.Ending.done fault).report x.budget
      (x.transcript e).output)])) :
    Kept (s.settleExecution c t w (.done fault)) (ownDeeds (log ++ (s.deeds l r).toList)) := by
  obtain ⟨b, known, fits⟩ := h.fits (some c) _ w ⟨stands, rfl⟩
  cases e with
  | none => exact fits.elim
  | some e =>
    -- as if the report came first, and the adapter learned of it afterwards
    have idle : Kept ((s.setDesk w b).setCall c (.started t (.ok w)))
        (ownDeeds (log ++ (s.deeds l r).toList)) := by
      rw [deed]
      exact h.act stands rfl known rfl Finished.report Idle.orderly
    rw [setDesk_self known] at idle
    have kept : (Worker.Ending.done fault).keepsWorker = true := rfl
    obtain ⟨v, hs⟩ := settleExecution_of_keeps (s := s) (c := c) (t := t) (w := w) kept
    rw [hs]
    refine idle.carry ?_ rfl fun _ b known => ⟨b, known, rfl⟩
    refine .checkIn (call?_setCall_self ..) rfl (fun _ _ _ fits => fits) rfl fun d => ?_
    show (s.endCall c).call? d = _
    by_cases same : d = c <;> simp [same]

/-- An execution that has lost its worker is reported without it. -/
theorem discard {ending : Worker.Ending} {e : Option Worker.Execution}
    (h : Kept s (ownDeeds log)) (stands : s.call? c = some (.executed t w x e ending))
    (lost : ending.keepsWorker = false) :
    Kept (s.settleExecution c t w ending)
      (ownDeeds (log ++ (s.deeds (.settle c) r).toList)) := by
  rw [settleExecution_of_lost lost]
  refine h.pass (.endCall (fun v hv => ?_) fun _ => rfl) rfl (deeds_settle_lost stands lost)
  -- the adapter has no other worker for having lost this one
  have same : (s.state.discard t).2.worker = s.state.worker := by
    unfold State.discard
    split <;> rfl
  exact same.symm.trans hv

/-- A call gets the worker of the adapter for an execution. -/
theorem lend {σ : State} (h : Kept s (ownDeeds log)) (slot : s.state.worker = some w)
    (gone : σ.worker = none) :
    Kept (({ s with state := σ } : System).setCall c (.executing t w x none))
      (ownDeeds (log ++ [(w, [.lent x.code x.budget])])) := by
  -- as if the call took the place of the adapter first, and began with the execution afterwards
  let before := ({ s with state := σ } : System).setCall c (.started t (.ok w))
  have got : Kept before (ownDeeds log) :=
    h.carry (.get slot rfl (fun _ _ _ fits => fits) gone fun _ => rfl) rfl
      fun _ b known => ⟨b, known, rfl⟩
  have stands : before.call? c = some (.started t (.ok w)) := call?_setCall_self ..
  obtain ⟨b, known, -⟩ := got.fits (some c) _ w ⟨stands, rfl⟩
  have lent : Kept ((before.setDesk w b).setCall c (.executing t w x none))
      (ownDeeds (log ++ [(w, [.lent x.code x.budget])])) :=
    got.act stands rfl known rfl (fun fits => Idle.lend fits x.code x.budget) Lent.orderly
  rw [setDesk_self known] at lent
  refine lent.carry (.of_eq rfl fun d => ?_) rfl fun _ b known => ⟨b, known, rfl⟩
  by_cases same : d = c <;> simp [same, before]

/-- A message waits for whoever has the worker. -/
theorem deliver (h : Kept s records) (known : s.desks[w]? = some b) (m : Worker.Message) :
    Kept (s.setDesk w (b.deliver m)) records := by
  refine h.carry (.of_eq rfl fun _ => rfl) List.length_set fun v b₁ hv => ?_
  show ∃ b' : Worker.Desk, (s.desks.set w (b.deliver m))[v]? = some b' ∧ _
  by_cases same : v = w
  · subst same
    rw [known] at hv
    cases hv
    exact ⟨_, List.getElem?_set_self (List.getElem?_eq_some_iff.1 known).1, rfl⟩
  · exact ⟨b₁, (List.getElem?_set_ne (Ne.symm same)).trans hv, rfl⟩

/-- Every step keeps the records in order. -/
theorem step (h : Kept s (ownDeeds log)) (step : Step s l s' r) :
    Kept s' (ownDeeds (log ++ (s.deeds l r).toList)) := by
  cases step with
  | prepare free asked =>
    rcases ask_cases asked with ⟨-, rfl⟩ | ⟨-, rfl⟩
    · exact h.pass (.of_eq rfl fun _ => rfl) rfl rfl
    · exact h.pass (.setCall_of_none (fun _ hw => hw) (fun _ => rfl) rfl) rfl rfl
  | replace free ordered asked =>
    rcases ask_cases asked with ⟨-, rfl⟩ | ⟨-, rfl⟩
    · exact h.pass (.of_eq rfl fun _ => rfl) rfl rfl
    · exact h.pass (.setCall_of_none (fun _ hw => hw) (fun _ => rfl) rfl) rfl rfl
  | queue stands => exact h.pass (.setCall_of_none (fun _ hw => hw) (fun _ => rfl) rfl) rfl rfl
  | enter stands first taken =>
    rcases takeTurn_cases taken with ⟨-, rfl⟩ | ⟨-, ⟨e, -, rfl⟩ | ⟨-, rfl⟩⟩
    · exact h.pass (.endCall (fun _ hw => hw) fun _ => rfl) rfl rfl
    · exact h.pass (.endCall (fun _ hw => hw) fun _ => rfl) rfl rfl
    · exact h.pass (.setCall_of_none (fun _ hw => hw) (fun _ => rfl) rfl) rfl rfl
  | plan ordered => exact h.pass (.of_eq rfl fun _ => rfl) rfl rfl
  | wake stands going wanted => exact h.pass (.of_eq rfl fun _ => rfl) rfl rfl
  | rest stands going awake => exact h.pass (.of_eq rfl fun _ => rfl) rfl rfl
  | @launch c t n stands begun awake =>
    have nothing : (s.deeds (.launch c) none).toList = [] := rfl
    rw [nothing, List.append_nil]
    exact h.launch
  | @listen c t w u s' stands awake taken =>
    obtain ⟨b, m, ms, u', known, hms, next⟩ := listen_cases taken
    rw [deeds_listen stands known hms]
    rcases next with ⟨-, rfl⟩ | ⟨v, -, rfl⟩
    · exact h.act stands rfl known rfl (fun fits => Listening.hear fits m) Listening.orderly
    · exact h.act stands rfl known rfl (fun fits => (Listening.hear fits m).idle) Idle.orderly
  | fail stands starting begun awake =>
    exact h.pass (.setCall_of_none (fun _ hw => hw) (fun _ => rfl) rfl) rfl rfl
  | stop stands starting cancelled =>
    exact h.pass (.setCall_of_none (fun _ hw => hw) (fun _ => rfl) rfl) rfl rfl
  | execute free taken =>
    rcases execute_reply taken with ⟨rfl, ready, w, slot, rfl⟩ | ⟨⟨f, rfl⟩, rfl | ⟨ready, slot, rfl⟩⟩
    · have gone : (s.state.checkOut s.language).2.worker = none := by
        rw [State.checkOut_of_ready ready slot]
      rw [deeds_execute slot]
      exact h.lend slot gone
    · exact h.pass (.of_eq rfl fun _ => rfl) rfl deeds_execute_refused
    · have none : (s.state.checkOut s.language).2.worker = s.state.worker := by
        rw [State.checkOut_of_bare ready slot]
      exact h.pass (.of_eq none fun _ => rfl) rfl deeds_execute_refused
  | @send c t w x s' stands awake sent =>
    obtain ⟨b, known, rfl⟩ := send_cases sent
    rw [deeds_send stands known]
    exact h.act stands rfl known rfl (fun fits => Lent.send fits) Working.orderly
  | @receive c t w x e s' stands awake taken =>
    obtain ⟨b, m, ms, e', known, hms, ⟨hm, rfl⟩ | ⟨fault, hm, rfl⟩⟩ := receive_cases taken
    · rw [deeds_receive stands known hms hm]
      exact h.act stands rfl known rfl (fun fits => Working.take fits hm) Working.orderly
    · rw [deeds_receive_done stands known hms hm]
      exact h.act stands rfl known rfl (fun fits => Working.finish fits hm) Finished.orderly
  | @abandon c t w x e ending stands may =>
    refine h.pass (.setCall (fun _ hw => hw) (fun _ => rfl) ?_) rfl rfl
    refine fun v hv => ⟨_, stands, hv, fun _ _ _ => ?_⟩
    -- nothing is asked of an execution without its worker
    cases ending with
    | done fault => cases may
    | lost detail => cases e <;> trivial
    | terminated => cases e <;> trivial
    | outOfTime => cases e <;> trivial
  | @settleStart c t q s' r stands settled =>
    obtain ⟨v, rfl⟩ := settleStart_cases settled
    exact h.pass (.leave stands rfl fun _ => rfl) rfl (deeds_settleStart stands)
  | @settleExecution c t w x e ending stands =>
    cases ending with
    | done fault => exact h.report stands (deeds_settle_done stands)
    | lost detail => exact h.discard stands rfl
    | terminated => exact h.discard stands rfl
    | outOfTime => exact h.discard stands rfl
  | terminate =>
    refine h.pass (.of_kept (fun _ hw => nomatch hw) fun d k' _ hk hw => ?_) rfl rfl
    exact ⟨k', hk, hw, fun _ _ fits => fits⟩
  | drop stands pending => exact h.pass (.endCall (fun _ hw => hw) fun _ => rfl) rfl rfl
  | @deliver w m b known =>
    have arrived : (s.deeds (.deliver w m) none).toList = [(w, [.arrived m])] := rfl
    rw [arrived, ownDeeds_arrived]
    exact h.deliver known m

end Kept

/-! ## Records tell the truth -/

/-- The record of each worker agrees with its desk. -/
def Told (s : System) (records : WorkerId → List Deed) : Prop :=
  ∀ w, Faithful (s.desk w) (records w)

namespace Told

variable {records : WorkerId → List Deed} {log : List (WorkerId × List Deed)} {b b' : Worker.Desk}
  {ds : List Deed}

/-- A step that leaves the desks as they are. -/
theorem pass (h : Told s (recordOf log)) (desks : s'.desks = s.desks)
    (nothing : s.deeds l r = none) : Told s' (recordOf (log ++ (s.deeds l r).toList)) := by
  intro w
  have same : s'.desk w = s.desk w :=
    congrArg (fun bs : List Worker.Desk => bs[w]?.getD .start) desks
  rw [nothing, Option.toList_none, List.append_nil, same]
  exact h w

/-- Something is done with a worker, and its desk changes with its record. -/
theorem act (h : Told s (recordOf log)) (known : s.desks[w]? = some b)
    (desks : s'.desks = s.desks.set w b') (deed : s.deeds l r = some (w, ds))
    (more : Faithful b (recordOf log w) → Faithful b' (recordOf log w ++ ds)) :
    Told s' (recordOf (log ++ (s.deeds l r).toList)) := by
  intro v
  have inside : w < s.desks.length := (List.getElem?_eq_some_iff.1 known).1
  rw [deed, Option.toList_some, recordOf_append]
  by_cases same : v = w
  · subst same
    have now : s'.desk v = b' := by
      apply desk_of_known
      rw [desks]
      exact List.getElem?_set_self inside
    have was : Faithful b (recordOf log v) := desk_of_known known ▸ h v
    rw [Function.update_self, now]
    exact more was
  · have still : s'.desk v = s.desk v := by
      unfold desk
      rw [desks, List.getElem?_set_ne (Ne.symm same)]
    rw [Function.update_of_ne same, still]
    exact h v

/-- A new worker has a desk on which nothing lies. -/
theorem launch {t : Ticket} (h : Told s records) : Told (s.launch c t) records := by
  intro v
  have same : (s.launch c t).desk v = s.desk v := by
    show (s.desks ++ [Worker.Desk.start])[v]?.getD .start = s.desks[v]?.getD .start
    rcases Nat.lt_or_ge v s.desks.length with inside | outside
    · rw [List.getElem?_append_left inside]
    · rw [List.getElem?_append_right outside, List.getElem?_eq_none outside]
      cases v - s.desks.length <;> rfl
  rw [same]
  exact h v

/-- Something is noted about a worker that changes nothing about its desk. -/
theorem note (h : Told s (recordOf log)) (desks : s'.desks = s.desks)
    (deed : s.deeds l r = some (w, ds))
    (more : Faithful (s.desk w) (recordOf log w) → Faithful (s.desk w) (recordOf log w ++ ds)) :
    Told s' (recordOf (log ++ (s.deeds l r).toList)) := by
  intro v
  have same : s'.desk v = s.desk v :=
    congrArg (fun bs : List Worker.Desk => bs[v]?.getD .start) desks
  rw [deed, Option.toList_some, recordOf_append, same]
  by_cases hv : v = w
  · subst hv
    rw [Function.update_self]
    exact more (h v)
  · rw [Function.update_of_ne hv]
    exact h v

/-- Every step keeps the records true. -/
theorem step (h : Told s (recordOf log)) (step : Step s l s' r) :
    Told s' (recordOf (log ++ (s.deeds l r).toList)) := by
  cases step with
  | prepare free asked =>
    rcases ask_cases asked with ⟨-, rfl⟩ | ⟨-, rfl⟩ <;> exact h.pass rfl rfl
  | replace free ordered asked =>
    rcases ask_cases asked with ⟨-, rfl⟩ | ⟨-, rfl⟩ <;> exact h.pass rfl rfl
  | queue stands => exact h.pass rfl rfl
  | enter stands first taken =>
    rcases takeTurn_cases taken with ⟨-, rfl⟩ | ⟨-, ⟨e, -, rfl⟩ | ⟨-, rfl⟩⟩ <;> exact h.pass rfl rfl
  | plan ordered => exact h.pass rfl rfl
  | wake stands going wanted => exact h.pass rfl rfl
  | rest stands going awake => exact h.pass rfl rfl
  | @launch c t n stands begun awake =>
    have nothing : (s.deeds (.launch c) none).toList = [] := rfl
    rw [nothing, List.append_nil]
    exact h.launch
  | @listen c t w u s' stands awake taken =>
    obtain ⟨b, m, ms, u', known, hms, next⟩ := listen_cases taken
    have deed := deeds_listen (r := none) stands known hms
    rcases next with ⟨-, rfl⟩ | ⟨v, -, rfl⟩ <;> exact h.act known rfl deed fun was => was.hear hms
  | fail stands starting begun awake => exact h.pass rfl rfl
  | stop stands starting cancelled => exact h.pass rfl rfl
  | execute free taken =>
    rcases execute_reply taken with ⟨rfl, -, w, slot, rfl⟩ | ⟨⟨f, rfl⟩, rfl | ⟨-, -, rfl⟩⟩
    · exact h.note rfl (deeds_execute slot) fun was => was.lend ..
    · exact h.pass rfl deeds_execute_refused
    · exact h.pass rfl deeds_execute_refused
  | @send c t w x s' stands awake sent =>
    obtain ⟨b, known, rfl⟩ := send_cases sent
    exact h.act known rfl (deeds_send stands known) fun was => was.send x.code x.budget
  | @receive c t w x e s' stands awake taken =>
    obtain ⟨b, m, ms, e', known, hms, ⟨hm, rfl⟩ | ⟨fault, hm, rfl⟩⟩ := receive_cases taken
    · exact h.act known rfl (deeds_receive stands known hms hm) fun was => was.take hms
    · exact h.act known rfl (deeds_receive_done stands known hms hm) fun was => was.finish hms
  | abandon stands may => exact h.pass rfl rfl
  | @settleStart c t q s' r stands settled =>
    obtain ⟨v, rfl⟩ := settleStart_cases settled
    exact h.pass rfl (deeds_settleStart stands)
  | @settleExecution c t w x e ending stands =>
    cases kept : ending.keepsWorker with
    | true =>
      obtain ⟨v, hs⟩ := settleExecution_of_keeps (s := s) (c := c) (t := t) (w := w) kept
      cases ending with
      | done fault =>
        rw [hs]
        exact h.note rfl (deeds_settle_done stands) fun was => was.report _
      | lost detail => cases kept
      | terminated => cases kept
      | outOfTime => cases kept
    | false =>
      rw [settleExecution_of_lost kept]
      exact h.pass rfl (deeds_settle_lost stands kept)
  | terminate => exact h.pass rfl rfl
  | drop stands pending => exact h.pass rfl rfl
  | deliver known => exact h.act known rfl rfl fun was => was.deliver _

end Told

/-! ## Attribution -/

/-- What is done with a worker, and in which order. The record is a row of exchanges, the requests
have the numbers from one on, and the record agrees with the desk. -/
structure Attributed (b : Worker.Desk) (record : List Deed) : Prop where
  orderly : Orderly (record.filter Deed.isOwn)
  numbered : b.sent.map Wire.Request.id = List.range' 1 b.sent.length
  faithful : Faithful b record

section
variable {language : String} {defaults : Budget} {log : List (WorkerId × List Deed)}

/-- Along a run the records stay in order and true. -/
theorem Recorded.kept (run : Recorded (new language defaults) s log) :
    Kept s (ownDeeds log) ∧ Told s (recordOf log) := by
  induction run with
  | start => exact ⟨.new language defaults, fun _ => .start⟩
  | next run step ih => exact ⟨ih.1.step (.of_step step), ih.2.step (.of_step step)⟩

/-- Output goes to the request that it was written for. After any run the record of each worker is a
row of exchanges that agrees with its desk, and stale events neither change nor end an execution and
count for no report. -/
theorem attributed_of_recorded (run : Recorded (new language defaults) s log) (w : WorkerId) :
    Attributed (s.desk w) (recordOf log w) ∧
      (∀ (e : Worker.Execution) (m : Worker.Message), m.isStale e.id = true →
        e.receive m = (e, none)) ∧
      ∀ (x : Worker.Exchange) (id : Nat), (x.fresh id).report id = x.report id := by
  obtain ⟨kept, told⟩ := run.kept
  refine ⟨⟨kept.orderly w, ?_, told w⟩, ?_, Worker.Exchange.report_fresh⟩
  · have numbers := (kept.orderly w).numbered
    have own : Worker.requests (ownDeeds log w) = (s.desk w).sent :=
      (Worker.requests_own (recordOf log w)).trans (told w).sent
    rwa [own] at numbers
  · intro e m stale
    exact Worker.Execution.receive_of_isStale stale

end

/-- Takes steps by these labels, one after the other, with a record. -/
def record (s : System) : List Label → Option (System × List (WorkerId × List Deed))
  | [] => some (s, [])
  | l :: ls => do
    let (s₁, r) ← s.step l
    let (s₂, log) ← s₁.record ls
    some (s₂, (s.deeds l r).toList ++ log)

/-- A step before a run. -/
theorem Recorded.cons {s₁ s₂ : System} {log : List (WorkerId × List Deed)}
    (step : s.step l = some (s₁, r)) (run : Recorded s₁ s₂ log) :
    Recorded s s₂ ((s.deeds l r).toList ++ log) := by
  induction run with
  | start => simpa using Recorded.start.next step
  | next _ more ih =>
    rw [← List.append_assoc]
    exact ih.next more

/-- Following labels with a record is a run with that record. -/
theorem Recorded.of_record {ls : List Label} {log : List (WorkerId × List Deed)}
    (h : s.record ls = some (s', log)) : Recorded s s' log := by
  induction ls generalizing s log with
  | nil =>
    cases h
    exact .start
  | cons l ls ih =>
    obtain ⟨⟨s₁, r⟩, step, rest⟩ := Option.bind_eq_some_iff.1 h
    obtain ⟨⟨s₂, more⟩, run, last⟩ := Option.bind_eq_some_iff.1 rest
    cases last
    exact (ih run).cons step

/-- A worker that says too early that its second request is done, and writes for a request that it
does not have. -/
def meddling : List Label :=
  [.prepare 0, .queue (.caller 0), .enter (.caller 0), .plan 1, .wake (.caller 0), .launch (.caller 0),
    .deliver 0 (.event (.ready "5.4")), .listen (.caller 0), .settle (.caller 0),
    .execute 1 "one" none, .deliver 0 (.event (.done 2 none)),
    .deliver 0 (.event (.output .stdout 7 "old")), .wake (.caller 1), .send (.caller 1), .receive (.caller 1),
    .receive (.caller 1), .deliver 0 (.event (.output .stdout 1 "a")),
    .deliver 0 (.event (.done 1 none)), .deliver 0 (.stderr "b"),
    .deliver 0 (.event (.ready "5.4")), .receive (.caller 1), .receive (.caller 1),
    .settle (.caller 1)]

/-- Neither the early event nor the text for another request counts; the text on the other pipe does
that has arrived by the end. -/
theorem attributed_of_recorded_meddling : ∃ s log,
    (new "lua" .standard).record meddling = some (s, log) ∧
      (recordOf log 0).getLast? = some (.reported (.completed ⟨"a", "b", false⟩ none)) ∧
      Attributed (s.desk 0) (recordOf log 0) := by
  refine ⟨_, _, rfl, ?_, ?_⟩
  · rfl
  · have run := @Recorded.of_record (new "lua" .standard) _ meddling _ rfl
    exact (attributed_of_recorded run 0).1

end SnippetRunner.Adapter.System
