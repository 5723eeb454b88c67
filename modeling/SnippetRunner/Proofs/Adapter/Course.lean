import SnippetRunner.Proofs.Adapter.Alive
import SnippetRunner.Proofs.Adapter.Polling
import SnippetRunner.Proofs.Adapter.Timeline

/-!
# The course of an execution

From its admission on, an execution is looked at now and then, and in between the others do what they
like: messages arrive, the adapter is terminated, other calls go on. What becomes of the execution is
told by the times alone at which a termination, an end of its worker and the end of its time are there
to see, if somebody looks at the first of them.
-/

namespace SnippetRunner.Adapter.System

open Worker (Ending Execution Message)

variable {s s' s₀ s₁ s₂ : System} {c : CallId} {t : Ticket} {w : WorkerId} {x : Errand} {k : Call}
  {e : Option Execution} {b : Worker.Desk} {l : Label} {r : Option Reply} {limit id : Nat}

/-! ## What the others do to a desk -/

/-- While a call has a worker, the others can but pass on messages from it. -/
theorem Step.desk_of_other (step : Step s l s' r) (other : l.by? ≠ some c) (unshared : s.Unshared)
    (stands : s.call? c = some k) (has : k.worker? = some w) (known : s.desks[w]? = some b) :
    ∃ ms, s'.desks[w]? = some { b with messages := b.messages ++ ms } := by
  have same : s.desks[w]? = some { b with messages := b.messages ++ [] } := by
    rw [List.append_nil]
    exact known
  -- whoever else has a worker has another one
  have apart {d : CallId} {q : Call} {v : WorkerId} (mine : l.by? = some d) (there : s.call? d = some q)
      (hq : q.worker? = some v) : v ≠ w := by
    rintro rfl
    have holder := unshared (some d) (some c) q k v ⟨there, hq⟩ ⟨stands, has⟩
    exact other (mine.trans holder)
  have aside {d : CallId} {q : Call} {v : WorkerId} (b' : Worker.Desk) (mine : l.by? = some d)
      (there : s.call? d = some q) (hq : q.worker? = some v) :
      (s.desks.set v b')[w]? = some { b with messages := b.messages ++ [] } := by
    rw [List.getElem?_set_ne (apart mine there hq)]
    exact same
  cases step with
  | prepare free asked =>
    rcases ask_cases asked with ⟨-, rfl⟩ | ⟨-, rfl⟩ <;> exact ⟨[], same⟩
  | replace free ordered asked =>
    rcases ask_cases asked with ⟨-, rfl⟩ | ⟨-, rfl⟩ <;> exact ⟨[], same⟩
  | enter stands' first taken =>
    rcases takeTurn_cases taken with ⟨-, rfl⟩ | ⟨-, ⟨f, -, rfl⟩ | ⟨-, rfl⟩⟩ <;> exact ⟨[], same⟩
  | launch stands' begun awake =>
    refine ⟨[], ?_⟩
    show (s.desks ++ [Worker.Desk.start])[w]? = _
    rw [List.getElem?_append_left (List.getElem?_eq_some_iff.1 known).1]
    exact same
  | listen stands' awake taken =>
    obtain ⟨b', m, ms, u, -, -, ⟨-, rfl⟩ | ⟨v, -, rfl⟩⟩ := listen_cases taken
    · exact ⟨[], aside _ rfl stands' rfl⟩
    · exact ⟨[], aside _ rfl stands' rfl⟩
  | execute free taken =>
    rcases execute_cases taken with rfl | ⟨-, ⟨v, -, rfl⟩ | ⟨-, rfl⟩⟩ <;> exact ⟨[], same⟩
  | send stands' awake sent =>
    obtain ⟨b', -, rfl⟩ := send_cases sent
    exact ⟨[], aside _ rfl stands' rfl⟩
  | receive stands' awake taken =>
    obtain ⟨b', m, ms, e', -, -, ⟨-, rfl⟩ | ⟨fault, -, rfl⟩⟩ := receive_cases taken
    · exact ⟨[], aside _ rfl stands' rfl⟩
    · exact ⟨[], aside _ rfl stands' rfl⟩
  | settleStart stands' settled =>
    obtain ⟨v, rfl⟩ := settleStart_cases settled
    exact ⟨[], same⟩
  | @settleExecution d u v y f ending stands' =>
    obtain ⟨state, v, n, settled⟩ := s.settleExecution_cases d u v ending
    rw [settled]
    exact ⟨[], same⟩
  | @deliver v m b' known' =>
    by_cases mine : v = w
    · subst mine
      rw [known] at known'
      obtain rfl := Option.some.inj known'
      exact ⟨[m], List.getElem?_set_self (List.getElem?_eq_some_iff.1 known).1⟩
    · refine ⟨[], ?_⟩
      show (s.desks.set v _)[w]? = _
      rw [List.getElem?_set_ne mine]
      exact same
  | queue | plan | wake | rest | fail | stop | abandon | terminate | drop => exact ⟨[], same⟩

/-- A call stands where it stood when the others have taken their steps, and its worker has the number
for its next request that it had. -/
theorem Runs.of_others {language : String} {defaults : Budget}
    (reached : Runs (fun _ => True) (new language defaults) s)
    (run : Runs (fun l => l.by? ≠ some c) s s') (stands : s.call? c = some k)
    (has : k.worker? = some w) (known : s.desks[w]? = some b) :
    Runs (fun _ => True) (new language defaults) s' ∧ s'.call? c = some k ∧
      ∃ ms, s'.desks[w]? = some { b with messages := b.messages ++ ms } := by
  induction run with
  | refl => exact ⟨reached, stands, [], by rw [List.append_nil]; exact known⟩
  | next _ other step ih =>
    obtain ⟨reached', stands', ms, known'⟩ := ih
    have taken := Step.of_step step
    obtain ⟨more, known''⟩ := taken.desk_of_other other reached'.unshared stands' has known'
    refine ⟨reached'.next trivial step, (taken.call?_eq other).trans stands', ms ++ more, ?_⟩
    rw [known'', List.append_assoc]

/-! ## Courses -/

/-- Somebody looks at an execution the time of which is up from a moment on, or nobody does. -/
def look (s : System) (c : CallId) (limit time : Nat) (v : Sight) (looks : Bool) : System :=
  if looks then s.poll c v (decide (limit ≤ time)) else s

/-- A moment of an execution. -/
def moment (s : System) (c : CallId) (limit time : Nat) (v : Sight) (looks : Bool) : Moment where
  time := time
  isStopped := s.isStopped c
  verdict := s.verdict? c v
  isLookedAt := looks
  taken := if looks then s.heard c v else []
  killed := s.live.filter fun w => !(s.look c limit time v looks).live.contains w

/-- The course of an execution from a system on: at each of its moments the others have taken some
steps, and then somebody may look at it. -/
inductive Course (c : CallId) (limit : Nat) (s : System) : List Moment → System → Prop where
  | start : Course c limit s [] s
  | next {ms : List Moment} {s₁ s₂ : System} (course : Course c limit s ms s₁)
    (others : Runs (fun l => l.by? ≠ some c) s₁ s₂) (time : Nat) (later : ∀ m ∈ ms, m.time < time)
    (v : Sight) (looks : Bool) :
    Course c limit s (ms ++ [s₂.moment c limit time v looks]) (s₂.look c limit time v looks)

variable {ms : List Moment} {v : Sight} {looks : Bool} {time : Nat} {language : String}
  {defaults : Budget}

theorem Course.inOrder (h : Course c limit s ms s') : Moment.InOrder ms := by
  induction h with
  | start => exact List.Pairwise.nil
  | next _ _ time later v looks ih =>
    refine List.pairwise_append.2 ⟨ih, List.pairwise_singleton .., ?_⟩
    intro m inside n last
    rw [List.mem_singleton.1 last]
    exact later m inside

/-- What an execution has come to by itself is no termination, and not that its time is up. -/
theorem isOwn_of_verdict? {ending : Ending} (is : s.verdict? c v = some ending) :
    Moment.IsOwn ending := by
  unfold verdict? at is
  split at is
  · rcases Option.or_eq_some_iff.1 is with done | ⟨-, lost⟩
    · obtain ⟨fault, -, rfl⟩ := Option.map_eq_some_iff.1 done
      exact ⟨nofun, nofun⟩
    · obtain ⟨detail, -, rfl⟩ := Option.map_eq_some_iff.1 lost
      exact ⟨nofun, nofun⟩
  · cases is

theorem Course.own (h : Course c limit s ms s') :
    ∀ n ∈ ms, ∀ e, n.verdict = some e → Moment.IsOwn e := by
  induction h with
  | start => exact nofun
  | next _ _ time later v looks ih =>
    intro n inside e is
    rcases List.mem_append.1 inside with before | last
    · exact ih n before e is
    · rw [List.mem_singleton.1 last] at is
      exact isOwn_of_verdict? is

/-! ## How far an execution has come -/

/-- How far the course of an execution has come: it goes on, or one of the moments has ended it. -/
inductive Progress (c : CallId) (limit : Nat) (t : Ticket) (w : WorkerId) (x : Errand) (id : Nat)
    (ms : List Moment) (s : System) : Prop where
  | goesOn {e : Option Execution} (stands : s.call? c = some (.executing t w x e))
    (number : e = none → (s.desk w).nextRequest = id)
    (gathers : Execution.Gathers id x.budget (Moment.received ms) e)
    (quiet : ∀ m ∈ ms, m.ending? limit = none) (spared : Moment.victims ms = [])
  | ended {e : Option Execution} {ending : Ending} {before behind : List Moment} {m : Moment}
    (stands : s.call? c = some (.executed t w x e ending)) (split : ms = before ++ m :: behind)
    (quiet : ∀ n ∈ before, n.ending? limit = none) (ends : m.ending? limit = some ending)
    (output : (x.transcript e).output = Worker.captured id x.budget (Moment.received ms))
    (killed : Moment.victims ms = if ending = .outOfTime then [w] else [])

/-- The worker of an execution that is not to stop is the one that runs. -/
theorem live_of_wanted (reached : Runs (fun _ => True) (new language defaults) s)
    (stands : s.call? c = some (.executing t w x e)) (wanted : s.isStopped c = false) :
    s.live = [w] := by
  have uncancelled := (isStopped_of_executing stands).symm.trans wanted
  have present : t.generation = s.state.generation :=
    State.isOutdated_eq_false_iff.1 ((reached.isCancelled_eq stands rfl).symm.trans uncancelled)
  have alive : w ∈ s.live := reached.alive (some c) w ⟨_, t, ⟨stands, rfl⟩, rfl, present, rfl⟩
  have only : ∀ v ∈ s.live, v = w := by
    intro v running
    exact reached.guarded.unique reached.lawful.toLined reached.tended.2 running alive
  have nodup := reached.guarded.nodup
  match live : s.live with
  | [] => simp [live] at alive
  | [u] => rw [only u (by simp [live])]
  | u :: v :: rest =>
    have same : u = v := (only u (by simp [live])).trans (only v (by simp [live])).symm
    simp [live, same] at nodup

/-- The others do not bring an execution on. -/
theorem Progress.of_others (h : Progress c limit t w x id ms s)
    (reached : Runs (fun _ => True) (new language defaults) s)
    (others : Runs (fun l => l.by? ≠ some c) s s') : Progress c limit t w x id ms s' := by
  cases h with
  | goesOn stands number gathers quiet spared =>
    obtain ⟨-, stands', ms, known'⟩ := reached.of_others others stands rfl (reached.known stands rfl)
    refine .goesOn stands' ?_ gathers quiet spared
    rw [desk_of_known known']
    exact number
  | ended stands split quiet ends output killed =>
    obtain ⟨-, stands', -⟩ := reached.of_others others stands rfl (reached.known stands rfl)
    exact .ended stands' split quiet ends output killed

/-- At some moments nothing becomes of an execution. -/
theorem Progress.idle {m : Moment} (h : Progress c limit t w x id ms s) (taken : m.taken = [])
    (killed : m.killed = [])
    (quiet : ∀ e, s.call? c = some (.executing t w x e) → m.ending? limit = none) :
    Progress c limit t w x id (ms ++ [m]) s := by
  have received : Moment.received (ms ++ [m]) = Moment.received ms := by
    rw [Moment.received_concat, taken, List.append_nil]
  have victims : Moment.victims (ms ++ [m]) = Moment.victims ms := by
    rw [Moment.victims_concat, killed, List.append_nil]
  cases h with
  | @goesOn e stands number gathers before spared =>
    refine .goesOn stands number (received ▸ gathers) ?_ (victims.trans spared)
    intro n inside
    rcases List.mem_append.1 inside with old | new
    · exact before n old
    · rw [List.mem_singleton.1 new]
      exact quiet e stands
  | @ended e ending before behind m' stands split earlier ends output victim =>
    have later : ms ++ [m] = before ++ m' :: (behind ++ [m]) := by
      rw [split, List.append_assoc]
      rfl
    exact .ended stands later earlier ends (received ▸ output) (victims.trans victim)

/-- Nobody is killed where the same workers run. -/
theorem killed_of_live_eq (same : (s.look c limit time v looks).live = s.live) :
    (s.moment c limit time v looks).killed = [] := by
  show s.live.filter (fun w => !(s.look c limit time v looks).live.contains w) = []
  rw [same, List.filter_eq_nil_iff]
  intro w inside
  simp [inside]

/-- A look brings an execution on that goes on. -/
theorem progress_poll (reached : Runs (fun _ => True) (new language defaults) s)
    (stands : s.call? c = some (.executing t w x e)) (number : e = none → (s.desk w).nextRequest = id)
    (gathers : Execution.Gathers id x.budget (Moment.received ms) e)
    (quiet : ∀ m ∈ ms, m.ending? limit = none) (spared : Moment.victims ms = []) :
    Progress c limit t w x id (ms ++ [s.moment c limit time v true])
      (s.poll c v (decide (limit ≤ time))) := by
  obtain ⟨e', looked, got⟩ := looked_poll (v := v) (p := decide (limit ≤ time)) stands
    (reached.known stands rfl) gathers number
  have received : Moment.received (ms ++ [s.moment c limit time v true]) =
      Moment.received ms ++ s.heard c v := Moment.received_concat ..
  have victims : Moment.victims (ms ++ [s.moment c limit time v true]) =
      (s.moment c limit time v true).killed := by
    rw [Moment.victims_concat, spared, List.nil_append]
  have ending : (s.moment c limit time v true).ending? limit =
      Ending.choose (s.isStopped c) (s.verdict? c v) (decide (limit ≤ time)) := rfl
  rw [← received] at got
  rw [← ending] at looked got
  cases outcome : (s.moment c limit time v true).ending? limit with
  | none =>
    rw [outcome] at looked got
    have live : (s.look c limit time v true).live = s.live :=
      looked.live.trans (by rw [if_neg nofun, kill_none])
    obtain ⟨sent, gathered⟩ := got.goesOn rfl
    refine .goesOn looked.stands ?_ gathered ?_ (victims.trans (killed_of_live_eq live))
    · rintro rfl
      cases sent
    · intro n inside
      rcases List.mem_append.1 inside with old | new
      · exact quiet n old
      · rw [List.mem_singleton.1 new]
        exact outcome
  | some ending =>
    rw [outcome] at looked got
    refine .ended looked.stands rfl quiet outcome got.output (victims.trans ?_)
    -- what is left is who has been killed by this look
    by_cases late : ending = .outOfTime
    · subst late
      -- the worker has been running until then, and it does not run after the look
      have wanted : s.isStopped c = false := by
        rcases Ending.choose_eq_some_iff.1 (ending.symm.trans outcome) with
          ⟨-, is⟩ | ⟨wanted, -⟩ | ⟨wanted, -⟩
        · cases is
        · exact wanted
        · exact wanted
      have one := live_of_wanted reached stands wanted
      have none : (s.look c limit time v true).live = [] := by
        have after := looked.live
        rw [if_pos rfl] at after
        refine after.trans ?_
        show s.live.filter (fun v => some v != some w) = []
        rw [one]
        simp
      show s.live.filter (fun w => !(s.look c limit time v true).live.contains w) = _
      rw [none, one]
      rfl
    · rw [if_neg late]
      exact killed_of_live_eq (looked.live.trans (by rw [if_neg (by simpa using late), kill_none]))

/-- A moment brings it on. -/
theorem Progress.next (h : Progress c limit t w x id ms s)
    (reached : Runs (fun _ => True) (new language defaults) s) :
    Progress c limit t w x id (ms ++ [s.moment c limit time v looks])
      (s.look c limit time v looks) := by
  cases looks with
  | false => exact h.idle rfl (killed_of_live_eq rfl) fun _ _ => rfl
  | true =>
    cases h with
    | goesOn stands number gathers quiet spared =>
      exact progress_poll reached stands number gathers quiet spared
    | ended stands split quiet ends output killed =>
      have same : s.look c limit time v true = s := poll_of_executed stands
      have nothing : s.heard c v = [] := by
        unfold heard
        rw [stands]
      rw [same]
      have come : Progress c limit t w x id ms s := .ended stands split quiet ends output killed
      refine come.idle nothing (killed_of_live_eq (by rw [same])) ?_
      intro e goesOn
      rw [stands] at goesOn
      cases goesOn

/-! ## Courses from an admission -/

/-- A look is made of steps of the adapter. -/
theorem run_poll {p : Bool} (reached : Runs (fun _ => True) (new language defaults) s) (c : CallId)
    (v : Sight) : Runs (Label.IsLook c) s (s.poll c v p) := by
  by_cases goesOn : ∃ t w x e, s.call? c = some (.executing t w x e)
  · obtain ⟨t, w, x, e, stands⟩ := goesOn
    obtain ⟨e', outcome, looked, -⟩ :=
      exists_looked_poll (v := v) (p := p) stands (reached.known stands rfl)
    exact looked.run
  · have nothing : s.poll c v p = s := by
      unfold poll
      split
      next t w x e stands => exact absurd ⟨t, w, x, e, stands⟩ goesOn
      next => rfl
    rw [nothing]
    exact .refl

/-- Along its course an execution comes on as far as its moments bring it. -/
theorem Course.progress (h : Course c limit s ms s')
    (reached : Runs (fun _ => True) (new language defaults) s)
    (stands : s.call? c = some (.executing t w x none)) (number : (s.desk w).nextRequest = id) :
    Runs (fun _ => True) (new language defaults) s' ∧ Progress c limit t w x id ms s' := by
  -- the others do not bring the execution on, so that only looks count
  induction h with
  | start => exact ⟨reached, .goesOn stands (fun _ => number) rfl nofun rfl⟩
  | @next ms s₁ s₂ _ others time later v looks ih =>
    obtain ⟨reached₁, come⟩ := ih
    have reached₂ := reached₁.trans (others.mono fun _ _ => trivial)
    refine ⟨?_, (come.of_others reached₁ others).next reached₂⟩
    cases looks with
    | false => exact reached₂
    | true => exact reached₂.trans ((run_poll reached₂ c v).mono fun _ _ => trivial)

/-- How an adapter stands that has learned how an execution ended. -/
structure Settled (s : System) (t : Ticket) (w : WorkerId) (ending : Ending) (s' : System) : Prop where
  /-- A worker whose request is done is back, and the adapter is ready. -/
  kept : t.generation = s.state.generation → ending.keepsWorker = true →
    s'.state = { s.state with phase := .ready, worker := some w } ∧ w ∈ s'.live ∧
      s'.replacements = s.replacements
  /-- Otherwise the worker has been killed, and one replacement is ordered. -/
  lost : t.generation = s.state.generation → ending.keepsWorker = false →
    s'.state = { s.state with phase := .uninitialized, kill := none } ∧ s'.state.worker = none ∧
      w ∉ s'.live ∧ s'.replacements = s.replacements + 1
  /-- Where a termination has come, it leaves the adapter alone, and its worker is killed. -/
  overtaken : t.generation ≠ s.state.generation →
    s'.state = s.state ∧ w ∉ s'.live ∧ s'.replacements = s.replacements

theorem settled_settleExecution {ending : Ending}
    (reached : Runs (fun _ => True) (new language defaults) s)
    (stands : s.call? c = some (.executed t w x e ending)) :
    Settled s t w ending (s.settleExecution c t w ending) := by
  have runs : s.ledger.duty c = .runs t w := duty_of_stands stands
  have killed (s : System) : w ∉ (s.kill (some w)).live := fun alive => (mem_live_kill.1 alive).2 rfl
  refine ⟨?_, ?_, ?_⟩
  · intro present keeps
    have executing := (reached.tended.1.of_runs runs present).1
    rw [settleExecution_of_awaited keeps (State.awaits_eq_true_iff.2 ⟨present, executing⟩)]
    have unspent : (Call.executed t w x e ending).isSpent = false := by
      cases ending <;> first | rfl | cases keeps
    exact ⟨rfl, reached.alive (some c) w ⟨_, t, ⟨stands, rfl⟩, rfl, present, unspent⟩, rfl⟩
  · intro present lost
    obtain ⟨executing, worker, -, -⟩ := reached.tended.1.of_runs runs present
    have awaited : s.state.awaits t = true := State.awaits_eq_true_iff.2 ⟨present, executing⟩
    rw [settleExecution_of_lost lost, State.discard_of_awaits awaited, if_pos awaited]
    exact ⟨rfl, worker, killed _, rfl⟩
  · intro late
    have unawaited : s.state.awaits t = false := by
      apply Bool.eq_false_iff.2
      intro awaited
      exact late (State.awaits_eq_true_iff.1 awaited).1
    cases keeps : ending.keepsWorker with
    | true =>
      rw [settleExecution_of_unawaited keeps unawaited]
      exact ⟨rfl, killed _, rfl⟩
    | false =>
      rw [settleExecution_of_lost keeps, State.discard_of_not_awaits unawaited]
      refine ⟨rfl, killed _, ?_⟩
      show (if s.state.awaits t then s.replacements + 1 else s.replacements) = s.replacements
      rw [if_neg (by simp [unawaited])]

/-- The end of an execution is a function of when things happen, whatever the others do in between. It
is decided by what comes first of a termination, what the worker comes to and that the time is up, if
somebody looks at that moment. -/
theorem decided_of_course {n start : Nat} {code : String} {budget : Option Budget}
    (run : Runs (fun _ => True) (new language defaults) s)
    (admitted : s.step (.execute n code budget) = some (s₀, none))
    (course : Course (.caller n) (start + (budget.getD defaults).timeout.nanos) s₀ ms s')
    (looked : ∃ m ∈ ms, m.isLookedAt = true ∧
      (m.time : ℕ∞) = Moment.due (start + (budget.getD defaults).timeout.nanos) ms) :
    ∃ w e ending, s.state.worker = some w ∧
      s'.call? (.caller n) = some (.executed s.state.ticket w ⟨code, budget.getD defaults⟩ e ending) ∧
      Moment.Decided (start + (budget.getD defaults).timeout.nanos) ms ending ∧
      Moment.victims ms = (if ending = .outOfTime then [w] else []) ∧
      ∀ s₁, Runs (fun l => l.by? ≠ some (.caller n)) s' s₁ → ∃ s₂,
        s₁.step (.settle (.caller n)) = some (s₂, some (.executed (.ok (ending.report (budget.getD defaults)
          (Worker.captured (s.desk w).nextRequest (budget.getD defaults) (Moment.received ms)))))) ∧
        Settled s₁ s.state.ticket w ending s₂ := by
  have usual : s.defaults = defaults := by
    refine run.keeps (P := fun s => s.defaults = defaults) ?_ rfl
    exact fun _ _ _ _ _ same step => step.defaults.trans same
  obtain ⟨-, w, slot, begun⟩ := admitted_cases admitted
  rw [usual] at begun
  have stands : s₀.call? (.caller n) =
      some (.executing s.state.ticket w ⟨code, budget.getD defaults⟩ none) := by
    rw [begun]
    exact call?_setCall_self ..
  have number : (s₀.desk w).nextRequest = (s.desk w).nextRequest := by
    rw [begun]
    rfl
  obtain ⟨reached, come⟩ := course.progress (run.next trivial admitted) stands number
  cases come with
  | goesOn _ _ _ quiet _ =>
    -- the look at the first of the three moments would have ended it
    obtain ⟨m, inside, looks, now⟩ := looked
    exact absurd (quiet m inside) (course.inOrder.ending?_of_due inside looks now)
  | @ended e ending before behind m stands' split quiet ends output killed =>
    have now : (m.time : ℕ∞) = Moment.due (start + (budget.getD defaults).timeout.nanos) ms := by
      rw [split] at looked ⊢
      exact (split ▸ course.inOrder).time_eq_due quiet (by simp [ends]) looked
    have inside : m ∈ ms := split ▸ List.mem_append_right _ (List.mem_cons_self ..)
    refine ⟨w, e, ending, slot, stands', course.inOrder.decided inside now ends course.own, killed, ?_⟩
    intro s₁ others
    obtain ⟨reached₁, stands₁, -⟩ := reached.of_others others stands' rfl (reached.known stands' rfl)
    refine ⟨_, ?_, settled_settleExecution reached₁ stands₁⟩
    rw [(Step.settleExecution stands₁).step_eq, output]

/-- A moment of a course that is laid down: what the others do before it, and what a look finds. -/
structure Scene where
  time : Nat
  others : List Label
  sight : Sight
  isLookedAt : Bool

/-- Goes through scenes, one after the other, behind the moments that there have been. -/
def enact (c : CallId) (limit : Nat) (s : System) (ms : List Moment) :
    List Scene → Option (List Moment × System)
  | [] => some (ms, s)
  | a :: scenes => do
    let s ← s.follow a.others
    if ∀ m ∈ ms, m.time < a.time then
      (s.look c limit a.time a.sight a.isLookedAt).enact c limit
        (ms ++ [s.moment c limit a.time a.sight a.isLookedAt]) scenes
    else none

/-- Scenes in which the others act make a course. -/
theorem Course.of_enact {scenes : List Scene} {ms' : List Moment} (course : Course c limit s ms s₁)
    (others : ∀ a ∈ scenes, ∀ l ∈ a.others, l.by? ≠ some c)
    (enacted : s₁.enact c limit ms scenes = some (ms', s')) : Course c limit s ms' s' := by
  induction scenes generalizing s₁ ms with
  | nil =>
    cases enacted
    exact course
  | cons a scenes ih =>
    obtain ⟨s₂, followed, rest⟩ := Option.bind_eq_some_iff.1 enacted
    split at rest
    next later =>
      have run := Runs.of_follow followed (others a List.mem_cons_self)
      refine ih (course.next run a.time later a.sight a.isLookedAt) ?_ rest
      exact fun b inside => others b (List.mem_cons_of_mem a inside)
    next => cases rest

/-- A worker is ready. -/
def equipped : List Label :=
  [.prepare 0, .queue (.caller 0), .enter (.caller 0), .plan 1, .wake (.caller 0), .launch (.caller 0),
    .deliver 0 (.event (.ready "5.4")), .listen (.caller 0), .settle (.caller 0)]

/-- The time of ten nanoseconds is up when the execution is found to be done, and a termination comes
right after that. -/
def justInTime : List Scene :=
  [⟨3, [], ⟨true, none⟩, true⟩,
    ⟨7, [.deliver 0 (.event (.output .stdout 1 "a"))], ⟨true, none⟩, false⟩,
    ⟨13, [.deliver 0 (.event (.done 1 none)), .deliver 0 (.stderr "b")], ⟨true, none⟩, true⟩,
    ⟨14, [.terminate], ⟨true, none⟩, true⟩]

/-- The worker is in time. -/
theorem decided_of_course_justInTime : ∃ s s₀ ms s',
    (new "lua" .standard).follow equipped = some s ∧
    s.step (.execute 1 "f()" (some ⟨⟨10⟩, 5, 5⟩)) = some (s₀, none) ∧
    s₀.enact (.caller 1) 13 [] justInTime = some (ms, s') ∧
    (∃ m ∈ ms, m.isLookedAt = true ∧ (m.time : ℕ∞) = Moment.due 13 ms) ∧
    ∃ w e ending, s.state.worker = some w ∧
      s'.call? (.caller 1) = some (.executed s.state.ticket w ⟨"f()", ⟨⟨10⟩, 5, 5⟩⟩ e ending) ∧
      Moment.Decided 13 ms ending ∧
      Moment.victims ms = (if ending = .outOfTime then [w] else []) ∧
      ∀ s₁, Runs (fun l => l.by? ≠ some (.caller 1)) s' s₁ → ∃ s₂,
        s₁.step (.settle (.caller 1)) = some (s₂, some (.executed (.ok (ending.report ⟨⟨10⟩, 5, 5⟩
          (Worker.captured (s.desk w).nextRequest ⟨⟨10⟩, 5, 5⟩ (Moment.received ms)))))) ∧
        Settled s₁ s.state.ticket w ending s₂ := by
  obtain ⟨s, s₀, ms, s', followed, admitted, enacted, looked⟩ : ∃ s s₀ ms s',
      (new "lua" .standard).follow equipped = some s ∧
      s.step (.execute 1 "f()" (some ⟨⟨10⟩, 5, 5⟩)) = some (s₀, none) ∧
      s₀.enact (.caller 1) 13 [] justInTime = some (ms, s') ∧
      ∃ m ∈ ms, m.isLookedAt = true ∧ (m.time : ℕ∞) = Moment.due 13 ms := by
    refine ⟨_, _, _, _, rfl, rfl, rfl, _,
      List.mem_cons_of_mem _ (List.mem_cons_of_mem _ List.mem_cons_self), rfl, ?_⟩
    show ((13 : Nat) : ℕ∞) = min ((14 : Nat) : ℕ∞) (min ((13 : Nat) : ℕ∞) ((13 : Nat) : ℕ∞))
    rw [min_self, min_eq_right (Nat.cast_le.2 (Nat.le_succ 13))]
  have run : Runs (fun _ => True) _ s := .of_follow followed fun _ _ => trivial
  have course : Course (.caller 1)
      (3 + ((some ⟨⟨10⟩, 5, 5⟩ : Option Budget).getD .standard).timeout.nanos) s₀ ms s' :=
    Course.start.of_enact (by decide) enacted
  exact ⟨s, s₀, ms, s', followed, admitted, enacted, looked,
    decided_of_course run admitted course looked⟩

end SnippetRunner.Adapter.System
