import SnippetRunner.Proofs.Adapter.Cancellation

/-!
# Overtaken work writes nothing

A start or an execution may come to its end long after a termination has overtaken it, at any point in
the life of a newer worker, and what it finds then may look like what it would have found in time.
None of its steps changes what others work with for all that: the state stays as newer work has left
it, nothing is ordered, and a worker that the call does not keep is killed and belongs to nobody. Only
how the last start ended is noted.
-/

namespace SnippetRunner.Adapter.System

variable {s s' : System} {c : CallId} {t : Ticket} {w : WorkerId} {k : Call} {l : Label}
  {r : Option Reply}

/-! ## Settling what nobody waits for -/

/-- An execution of an earlier generation is not awaited, also while the adapter executes. -/
theorem not_awaits_of_isOutdated (outdated : s.state.isOutdated t = true) :
    s.state.awaits t = false := by
  unfold State.awaits
  rw [outdated]
  rfl

/-- An execution that the adapter does not wait for goes with its worker, however it has ended. -/
theorem settleExecution_of_not_awaits {ending : Worker.Ending}
    (unwanted : s.state.awaits t = false) :
    s.settleExecution c t w ending = (s.endCall c).kill (some w) := by
  unfold settleExecution
  cases keeps : ending.keepsWorker with
  | true =>
    rw [if_pos rfl, State.checkIn_of_not_awaits unwanted]
    simp only [unwanted]
    rfl
  | false =>
    rw [if_neg Bool.false_ne_true, State.discard_of_not_awaits unwanted]
    rfl

/-- A worker that is killed does not run. -/
theorem not_mem_live_kill (s : System) (w : WorkerId) : w ∉ (s.kill (some w)).live := by
  intro alive
  exact (mem_live_kill.1 alive).2 rfl

/-! ## What a step leaves alone -/

/-- What a step has left as it was: the state but for how the last start ended, and everything that
has been ordered. -/
structure LeftAlone (s s' : System) : Prop where
  state : ∃ q, s'.state = { s.state with lastStart := q }
  replacements : s'.replacements = s.replacements
  orders : s'.orders = s.orders

/-- A call keeps its worker over a step, or the worker is killed. -/
def KeepsOrKills (s' : System) (c : CallId) (k : Call) : Prop :=
  ∀ w, k.worker? = some w → (∃ k', s'.call? c = some k' ∧ k'.worker? = some w) ∨ w ∉ s'.live

/-- Where the whole state is the same, it has been left alone. -/
theorem LeftAlone.of_eq (state : s'.state = s.state) (replacements : s'.replacements = s.replacements)
    (orders : s'.orders = s.orders) : LeftAlone s s' :=
  ⟨⟨s.state.lastStart, state⟩, replacements, orders⟩

/-- A call that goes on with its worker keeps it. -/
theorem keepsOrKills_setCall {k' : Call} (s : System) (c : CallId) (same : k'.worker? = k.worker?) :
    KeepsOrKills (s.setCall c k') c k := by
  intro w has
  exact .inl ⟨k', call?_setCall_self .., same.trans has⟩

/-- A call the worker of which is killed does not keep it. -/
theorem keepsOrKills_of_live (live : s'.live = (s.kill k.worker?).live) : KeepsOrKills s' c k := by
  intro w has
  rw [live, has]
  exact .inr (not_mem_live_kill s w)

/-- Whatever step an overtaken call takes, it leaves the state and all orders alone, it keeps its
worker or kills it, and it goes with its reply. -/
theorem Step.leftAlone (h : Step s l s' r) (mine : l.by? = some c) (stands : s.call? c = some k)
    (ticket : k.duty.ticket? = some t) (outdated : s.state.isOutdated t = true) :
    LeftAlone s s' ∧ KeepsOrKills s' c k ∧ (r.isSome → s'.call? c = none) := by
  -- a call without a ticket has not been overtaken
  have idle {d : CallId} {q : Call} (own : some d = some c) (hq : s.call? d = some q)
      (none : q.duty.ticket? = none) : False := by
    rw [(same_of_stands stands own hq).1, ticket] at none
    cases none
  cases h with
  | prepare free _ => exact absurd free (not_free_of_stands stands mine)
  | replace free _ _ => exact absurd free (not_free_of_stands stands mine)
  | execute free _ => exact absurd free (not_free_of_stands stands mine)
  | queue hq => exact (idle mine hq rfl).elim
  | enter hq _ _ => exact (idle mine hq rfl).elim
  | plan _ => cases mine
  | terminate => cases mine
  | deliver _ => cases mine
  | wake hq _ _ | rest hq _ _ =>
    obtain ⟨rfl, rfl⟩ := same_of_stands stands mine hq
    exact ⟨.of_eq rfl rfl rfl, (fun w has => .inl ⟨_, stands, has⟩), by simp⟩
  | launch hq _ _ =>
    obtain ⟨rfl, rfl⟩ := same_of_stands stands mine hq
    exact ⟨.of_eq rfl rfl rfl, (fun _ has => nomatch has), by simp⟩
  | listen hq _ taken =>
    obtain ⟨rfl, rfl⟩ := same_of_stands stands mine hq
    obtain ⟨b, m, ms, u, -, -, ⟨-, rfl⟩ | ⟨v, -, rfl⟩⟩ := listen_cases taken
    · exact ⟨.of_eq rfl rfl rfl, keepsOrKills_setCall _ _ rfl, by simp⟩
    · exact ⟨.of_eq rfl rfl rfl, keepsOrKills_setCall _ _ rfl, by simp⟩
  | fail hq _ _ _ =>
    obtain ⟨rfl, rfl⟩ := same_of_stands stands mine hq
    exact ⟨.of_eq rfl rfl rfl, keepsOrKills_of_live rfl, by simp⟩
  | stop hq _ _ =>
    obtain ⟨rfl, rfl⟩ := same_of_stands stands mine hq
    exact ⟨.of_eq rfl rfl rfl, keepsOrKills_of_live rfl, by simp⟩
  | send hq _ sent =>
    obtain ⟨rfl, rfl⟩ := same_of_stands stands mine hq
    obtain ⟨b, -, rfl⟩ := send_cases sent
    exact ⟨.of_eq rfl rfl rfl, keepsOrKills_setCall _ _ rfl, by simp⟩
  | receive hq _ taken =>
    obtain ⟨rfl, rfl⟩ := same_of_stands stands mine hq
    obtain ⟨b, m, ms, e, -, -, ⟨-, rfl⟩ | ⟨fault, -, rfl⟩⟩ := receive_cases taken
    · exact ⟨.of_eq rfl rfl rfl, keepsOrKills_setCall _ _ rfl, by simp⟩
    · exact ⟨.of_eq rfl rfl rfl, keepsOrKills_setCall _ _ rfl, by simp⟩
  | abandon hq _ =>
    obtain ⟨rfl, rfl⟩ := same_of_stands stands mine hq
    exact ⟨.of_eq rfl rfl rfl, keepsOrKills_setCall _ _ rfl, by simp⟩
  | @settleStart d u q s' r hq settled =>
    obtain ⟨rfl, rfl⟩ := same_of_stands stands mine hq
    have same : some u = some t := ticket
    cases same
    rw [settleStart_of_outdated outdated] at settled
    cases settled
    exact ⟨⟨⟨_, rfl⟩, rfl, rfl⟩, keepsOrKills_of_live rfl, by simp⟩
  | @settleExecution d u w x e ending hq =>
    obtain ⟨rfl, rfl⟩ := same_of_stands stands mine hq
    have same : some u = some t := ticket
    cases same
    rw [settleExecution_of_not_awaits (not_awaits_of_isOutdated outdated)]
    exact ⟨.of_eq rfl rfl rfl, keepsOrKills_of_live rfl, by simp⟩
  | drop hq _ =>
    obtain ⟨rfl, rfl⟩ := same_of_stands stands mine hq
    exact ⟨.of_eq rfl rfl rfl, keepsOrKills_of_live rfl, by simp⟩

/-! ## What an overtaken call does not do -/

/-- A step of a call has written nothing that others work with, and destroyed the worker that it does
not keep. -/
structure WritesNothing (s s' : System) (c : CallId) (k : Call) (r : Option Reply) : Prop where
  phase : s'.state.phase = s.state.phase
  generation : s'.state.generation = s.state.generation
  worker : s'.state.worker = s.state.worker
  kill : s'.state.kill = s.state.kill
  token : s'.state.token = s.state.token
  cancelled : s'.state.cancelled = s.state.cancelled
  attempts : s'.state.attempts = s.state.attempts
  /-- No replacement is ordered, and no launch plan. -/
  replacements : s'.replacements = s.replacements
  orders : s'.orders = s.orders
  others : ∀ d, d ≠ c → s'.call? d = s.call? d
  /-- A call that returns is gone. -/
  gone : r.isSome → s'.call? c = none
  /-- A worker that the call had stays with it, or does not run any more and belongs to nobody. -/
  destroys : ∀ w, k.worker? = some w →
    (∃ k', s'.call? c = some k' ∧ k'.worker? = some w) ∨
    (w ∉ s'.live ∧ ∀ h q, ¬s'.Holds h q w)

/-- Whatever the calls of an adapter have done, also when callers have given up theirs: no step of a
start or an execution that a termination has overtaken writes anything that others work with, and
its worker does not come back. -/
theorem writesNothing_of_overtaken {language : String} {b : Budget}
    (run : Runs (fun _ => True) (new language b) s) (stands : s.call? c = some k)
    (ticket : k.duty.ticket? = some t) (overtaken : t.generation < s.state.generation)
    (mine : l.by? = some c) (step : s.step l = some (s', r)) : WritesNothing s s' c k r := by
  have outdated : s.state.isOutdated t = true :=
    State.isOutdated_eq_true_iff.2 (Nat.ne_of_lt overtaken)
  have took := Step.of_step step
  obtain ⟨⟨⟨q, state⟩, replacements, orders⟩, keeps, gone⟩ :=
    took.leftAlone mine stands ticket outdated
  have others (d : CallId) (other : d ≠ c) : s'.call? d = s.call? d := by
    apply took.call?_eq
    rw [mine]
    exact fun same => other (Option.some.inj same).symm
  have worker : s'.state.worker = s.state.worker := by rw [state]
  obtain ⟨log, recorded⟩ := run.exists_recorded
  have unique := recorded.kept.1.unique
  refine ⟨by rw [state], by rw [state], worker, by rw [state], by rw [state], by rw [state],
    by rw [state], replacements, orders, others, gone, ?_⟩
  intro w has
  by_cases kept : ∃ k', s'.call? c = some k' ∧ k'.worker? = some w
  · exact .inl kept
  · refine .inr ⟨(keeps w has).resolve_left kept, ?_⟩
    -- whoever has the worker now would have shared it with the call before
    intro h q holds
    obtain ⟨place, hw⟩ := holds
    cases h with
    | none =>
      have same : s'.place? none = s.place? none := by
        unfold place?
        rw [state]
        rfl
      have before : s.Holds none q w := ⟨same.symm.trans place, hw⟩
      have shared := unique none (some c) q k w before ⟨stands, has⟩
      cases shared
    | some d =>
      by_cases same : d = c
      · subst same
        exact kept ⟨q, place, hw⟩
      · have before : s.Holds (some d) q w := ⟨(others d same).symm.trans place, hw⟩
        have shared := unique (some d) (some c) q k w before ⟨stands, has⟩
        exact same (Option.some.inj shared)

/-- An execution that is done is overtaken by a termination before the adapter learns of it, and
another one begins on the next worker. -/
def outliving : List Label :=
  [.prepare 0, .queue (.caller 0), .enter (.caller 0), .plan 1, .wake (.caller 0), .launch (.caller 0),
    .deliver 0 (.event (.ready "5.4")), .listen (.caller 0), .settle (.caller 0),
    .execute 1 "f()" none, .wake (.caller 1), .send (.caller 1), .deliver 0 (.event (.done 1 none)),
    .receive (.caller 1), .terminate,
    .prepare 2, .queue (.caller 2), .enter (.caller 2), .plan 2, .wake (.caller 2), .launch (.caller 2),
    .deliver 1 (.event (.ready "5.4")), .listen (.caller 2), .settle (.caller 2),
    .execute 3 "g()" none]

/-- The adapter executes again, and yet the execution that was done does not bring its worker back. -/
theorem writesNothing_of_overtaken_outliving : ∃ s s' t x e r,
    (new "lua" .standard).follow outliving = some s ∧ s.state.phase = .executing ∧
    s.call? (.caller 1) = some (.executed t 0 x e (.done none)) ∧
    t.generation < s.state.generation ∧ s.step (.settle (.caller 1)) = some (s', r) ∧
    WritesNothing s s' (.caller 1) (.executed t 0 x e (.done none)) r := by
  refine ⟨_, _, _, _, _, _, rfl, rfl, rfl, by decide, rfl, ?_⟩
  have run := @Runs.of_follow (fun _ => True) (new "lua" .standard) _ outliving rfl
    fun _ _ => trivial
  exact writesNothing_of_overtaken (l := .settle (.caller 1)) run rfl rfl (by decide) rfl rfl

end SnippetRunner.Adapter.System
