import Mathlib.Data.List.Induction
import SnippetRunner.Child.Group

/-!
# What outlives a worker that is given up

What can happen to a group, one thing after another: its processes start others and end, and the
handle asks for the status of the leader and kills, in any order. Giving the worker up kills the
group unless the status of the leader has been told, and that may be while other members are alive:
these, and what they start later, are left alone from then on. They are all that is left.
-/

namespace SnippetRunner.Child

/-- What can happen to a group. -/
inductive Act where
  /-- A process of the group starts another one. -/
  | fork (pid : Nat)
  /-- A member besides the leader ends by itself, or leaves the group. -/
  | leave (pid : Nat)
  /-- The leader ends, by itself or by a signal. -/
  | finish (s : Status)
  /-- The handle waits for the end of the leader. -/
  | wait
  /-- The handle asks whether the leader has ended. -/
  | tryWait
  /-- The handle, or a copy of it, kills the group. -/
  | kill
  /-- The worker is killed, and its end is waited for. -/
  | destroy
  deriving DecidableEq, Repr

/-- The status of the leader is asked for, and nothing else. -/
def Act.asks : Act → Bool
  | .wait | .tryWait => true
  | _ => false

namespace Group

variable {g g' g₁ : Group} {a : Act} {acts before after : List Act}

/-- Some process of the group is alive. -/
def isAlive (g : Group) : Bool := g.leads || !g.members.isEmpty

/-- What a group comes to. An act that is not possible is refused: only processes that are alive
start others, only they end, and the leader is waited for until it has ended. -/
def act (g : Group) : Act → Option Group
  | .fork pid => if g.isAlive && !g.members.contains pid then some (g.fork pid) else none
  | .leave pid => if g.members.contains pid then some (g.leave pid) else none
  | .finish s => if g.leads then some (g.finish s) else none
  | .wait => if g.leads then none else some g.tryWait.2
  | .tryWait => some g.tryWait.2
  | .kill => some g.kill
  | .destroy => some g.destroy.2

/-- What a group comes to by some acts, one after the other. -/
def run (g : Group) (acts : List Act) : Option Group := acts.foldlM act g

/-- The members that are left when nobody kills the group. -/
def survivors (members : List Nat) : List Act → List Nat
  | [] => members
  | .fork pid :: acts => survivors (pid :: members) acts
  | .leave pid :: acts => survivors (members.filter fun m => m != pid) acts
  | _ :: acts => survivors members acts

theorem run_cons (g : Group) (a : Act) (acts : List Act) :
    g.run (a :: acts) = (g.act a).bind fun g => g.run acts := rfl

theorem run_append (g : Group) (before after : List Act) :
    g.run (before ++ after) = (g.run before).bind fun g => g.run after :=
  List.foldlM_append

/-! ## Asking and killing -/

/-- Once the status of the leader has been told, killing does nothing. -/
theorem kill_of_reaped (h : g.reaped = true) : g.kill = g := by
  unfold kill
  rw [if_pos h]

/-- Before that, killing leaves nobody. -/
theorem kill_of_not_reaped (h : g.reaped = false) :
    g.kill.leads = false ∧ g.kill.members = [] ∧ g.kill.reaped = false := by
  unfold kill
  rw [if_neg (by simp [h])]
  cases hl : g.leader <;> simp [finish, leads, hl, h]

/-- A leader that runs tells no status. -/
theorem tryWait_of_leads (h : g.leads = true) : g.tryWait.2 = g := by
  unfold leads at h
  rw [beq_iff_eq] at h
  unfold tryWait
  rw [h]

/-- A leader that has ended tells its status. -/
theorem tryWait_of_not_leads (h : g.leads = false) : g.tryWait.2 = { g with reaped := true } := by
  unfold leads at h
  unfold tryWait
  cases hl : g.leader with
  | running => simp [hl] at h
  | ended s => rfl

/-- What an act makes of a group, by the ways in which it is possible. -/
inductive Acted (g : Group) : Act → Group → Prop where
  | fork {pid : Nat} (alive : g.isAlive = true) : Acted g (.fork pid) (g.fork pid)
  | leave {pid : Nat} : Acted g (.leave pid) (g.leave pid)
  | finish {s : Status} (leads : g.leads = true) : Acted g (.finish s) (g.finish s)
  | wait (exited : g.leads = false) : Acted g .wait { g with reaped := true }
  | unanswered (leads : g.leads = true) : Acted g .tryWait g
  | answered (exited : g.leads = false) : Acted g .tryWait { g with reaped := true }
  | kill : Acted g .kill g.kill
  | destroy : Acted g .destroy g.destroy.2

/-- Every act is possible in one of these ways. -/
theorem acted_of_act (ha : g.act a = some g') : Acted g a g' := by
  cases a with
  | fork pid =>
    obtain ⟨possible, made⟩ := Option.ite_none_right_eq_some.1 ha
    cases made
    rw [Bool.and_eq_true] at possible
    exact .fork possible.1
  | leave pid =>
    obtain ⟨-, made⟩ := Option.ite_none_right_eq_some.1 ha
    cases made
    exact .leave
  | finish s =>
    obtain ⟨leads, made⟩ := Option.ite_none_right_eq_some.1 ha
    cases made
    exact .finish leads
  | wait =>
    obtain ⟨leads, made⟩ := Option.ite_none_left_eq_some.1 ha
    cases made
    rw [Bool.not_eq_true] at leads
    rw [tryWait_of_not_leads leads]
    exact .wait leads
  | tryWait =>
    cases ha
    cases leads : g.leads with
    | true =>
      rw [tryWait_of_leads leads]
      exact .unanswered leads
    | false =>
      rw [tryWait_of_not_leads leads]
      exact .answered leads
  | kill =>
    cases ha
    exact .kill
  | destroy =>
    cases ha
    exact .destroy

/-- The end of the leader tells nobody its status. -/
theorem reaped_finish (g : Group) (s : Status) : (g.finish s).reaped = g.reaped := by
  unfold finish
  split <;> rfl

/-- Killing and waiting leaves nobody who could be told of later, unless the status has been told
before. -/
theorem destroy_of_not_reaped (h : g.reaped = false) : g.destroy.2.members = [] := by
  obtain ⟨exited, none, -⟩ := kill_of_not_reaped h
  unfold destroy
  rw [tryWait_of_not_leads exited]
  exact none

/-- The status of a leader is told only after its end. -/
def Told (g : Group) : Prop := g.reaped = true → g.leads = false

theorem told_tryWait (h : Told g) : Told g.tryWait.2 := by
  cases hl : g.leads with
  | true => rwa [tryWait_of_leads hl]
  | false =>
    rw [tryWait_of_not_leads hl]
    exact fun _ => hl

theorem told_kill (h : Told g) : Told g.kill := by
  cases hr : g.reaped with
  | true => rwa [kill_of_reaped hr]
  | false => exact fun _ => (kill_of_not_reaped hr).1

/-- Every act keeps that. -/
theorem told_act (h : Told g) (ha : g.act a = some g') : Told g' := by
  cases acted_of_act ha with
  | fork _ => exact h
  | leave => exact h
  | finish leads =>
    -- a leader that still ran has not been told of
    intro hr
    rw [reaped_finish] at hr
    rw [h hr] at leads
    cases leads
  | wait exited => exact fun _ => exited
  | unanswered _ => exact h
  | answered exited => exact fun _ => exited
  | kill => exact told_kill h
  | destroy => exact told_tryWait (told_kill h)

theorem told_run (h : Told g) (hr : g.run acts = some g') : Told g' := by
  induction acts generalizing g with
  | nil =>
    cases hr
    exact h
  | cons a acts ih =>
    rw [run_cons] at hr
    obtain ⟨g₁, ha, hr⟩ := Option.bind_eq_some_iff.1 hr
    exact ih (told_act h ha) hr

/-! ## After the status has been told -/

/-- Nothing but what the members do themselves changes a group whose leader's status has been
told. -/
theorem act_of_reaped (h : Told g) (hr : g.reaped = true) (ha : g.act a = some g') :
    g'.reaped = true ∧ g'.members = survivors g.members [a] := by
  have exited := h hr
  cases acted_of_act ha with
  | fork _ => exact ⟨hr, rfl⟩
  | leave => exact ⟨hr, rfl⟩
  | finish leads =>
    rw [exited] at leads
    cases leads
  | wait _ => exact ⟨rfl, rfl⟩
  | unanswered _ => exact ⟨hr, rfl⟩
  | answered _ => exact ⟨rfl, rfl⟩
  | kill =>
    rw [kill_of_reaped hr]
    exact ⟨hr, rfl⟩
  | destroy =>
    unfold destroy
    rw [kill_of_reaped hr, tryWait_of_not_leads exited]
    exact ⟨rfl, rfl⟩

theorem survivors_append (members : List Nat) (before after : List Act) :
    survivors members (before ++ after) = survivors (survivors members before) after := by
  induction before generalizing members with
  | nil => rfl
  | cons a before ih => cases a <;> exact ih _

/-- The same for a whole run. -/
theorem run_of_reaped (h : Told g) (hr : g.reaped = true) (hrun : g.run acts = some g') :
    g'.reaped = true ∧ g'.members = survivors g.members acts := by
  induction acts generalizing g with
  | nil =>
    cases hrun
    exact ⟨hr, rfl⟩
  | cons a acts ih =>
    rw [run_cons] at hrun
    obtain ⟨g₁, ha, hrun⟩ := Option.bind_eq_some_iff.1 hrun
    obtain ⟨reaped, members⟩ := act_of_reaped h hr ha
    obtain ⟨reaped', members'⟩ := ih (told_act h ha) reaped hrun
    refine ⟨reaped', ?_⟩
    rw [members', members, ← survivors_append]
    rfl

/-! ## What is left -/

/-- A group is gone when nobody of it is alive. -/
theorem isAlive_eq_false_iff : g.isAlive = false ↔ g.leads = false ∧ g.members = [] := by
  simp [isAlive]

/-- Nobody comes back. -/
theorem members_of_gone (exited : g.leads = false) (none : g.members = []) (h : Told g)
    (hr : g.reaped = true) (ha : g.act a = some g') : g'.members = [] := by
  obtain ⟨-, members⟩ := act_of_reaped h hr ha
  rw [members, none]
  cases acted_of_act ha with
  | fork alive =>
    rw [isAlive_eq_false_iff.2 ⟨exited, none⟩] at alive
    cases alive
  | _ => rfl

/-- Only an answer to a question makes a group one whose leader's status has been told, or killing
it and waiting for its end. -/
theorem asks_of_act (hr : g.reaped = false) (hr' : g'.reaped = true) (ha : g.act a = some g') :
    (a.asks = true ∧ g.leads = false ∧ g'.members = g.members) ∨ g'.members = [] := by
  cases acted_of_act ha with
  | fork _ => exact absurd hr' (by simp [fork, hr])
  | leave => exact absurd hr' (by simp [leave, hr])
  | finish _ => exact absurd hr' (by simp [reaped_finish, hr])
  | wait exited => exact .inl ⟨rfl, exited, rfl⟩
  | unanswered _ => exact absurd hr' (by simp [hr])
  | answered exited => exact .inl ⟨rfl, exited, rfl⟩
  | kill => exact absurd hr' (by simp [(kill_of_not_reaped hr).2.2])
  | destroy => exact .inr (destroy_of_not_reaped hr)

theorem told_start : Told start := fun h => by cases h

/-- From the answer to a question on, only what the members do themselves changes the group. -/
theorem reaped_of_asks (hrun : start.run acts = some g) (split : acts = before ++ a :: after)
    (hrun₁ : start.run before = some g₁) (asks : a.asks = true) (exited : g₁.leads = false) :
    g.reaped = true ∧ g.members = survivors g₁.members after := by
  rw [split, run_append, hrun₁, Option.bind_some, run_cons] at hrun
  obtain ⟨g₂, ha, hrun₂⟩ := Option.bind_eq_some_iff.1 hrun
  have answered : g₂ = { g₁ with reaped := true } := by
    cases acted_of_act ha with
    | wait _ => rfl
    | answered _ => rfl
    | unanswered leads =>
      rw [exited] at leads
      cases leads
    | _ => cases asks
  subst answered
  exact run_of_reaped (g := { g₁ with reaped := true }) (fun _ => exited) rfl hrun₂

/-- Where members are left after the status of the leader has been told, they were alive when a
question for it was answered, or have been started by such members. The induction is on the last
act. -/
theorem exists_asks (hrun : start.run acts = some g) (hr : g.reaped = true)
    (left : g.members ≠ []) :
    ∃ before a after g₁, acts = before ++ a :: after ∧ start.run before = some g₁ ∧
      a.asks = true ∧ g₁.leads = false ∧ survivors g₁.members after = g.members := by
  induction acts using List.reverseRecOn generalizing g with
  | nil =>
    cases hrun
    cases hr
  | append_singleton acts a ih =>
    rw [run_append] at hrun
    obtain ⟨g', hrun', last⟩ := Option.bind_eq_some_iff.1 hrun
    have ha : g'.act a = some g := by
      rw [run_cons] at last
      obtain ⟨g'', ha, rest⟩ := Option.bind_eq_some_iff.1 last
      cases rest
      exact ha
    have told : Told g' := told_run told_start hrun'
    cases hr' : g'.reaped with
    | false =>
      -- the last act is the one by which the status has been told
      rcases asks_of_act hr' hr ha with ⟨asks, exited, same⟩ | none
      · exact ⟨acts, a, [], g', rfl, hrun', asks, exited, same.symm⟩
      · exact absurd none left
    | true =>
      have left' : g'.members ≠ [] := fun none =>
        left (members_of_gone (told hr') none told hr' ha)
      obtain ⟨before, b, after, g₁, rfl, hrun₁, asks, exited, same⟩ := ih hrun' hr' left'
      refine ⟨before, b, after ++ [a], g₁, by simp, hrun₁, asks, exited, ?_⟩
      rw [survivors_append, same, (act_of_reaped told hr' ha).2]

/-- The worker is given up. Its leader is never alive then, and nobody of the group is, if and only
if nobody was left of those who were alive when a question for the leader's status was answered:
they, and what they have started since, have ended by themselves. -/
theorem drop_isAlive_iff (hrun : start.run acts = some g) :
    g.drop.leads = false ∧
    (g.drop.isAlive = false ↔
      ∀ before a after g₁, acts = before ++ a :: after → start.run before = some g₁ →
        a.asks = true → g₁.leads = false → survivors g₁.members after = []) := by
  have told : Told g := told_run told_start hrun
  unfold drop
  cases hr : g.reaped with
  | false =>
    -- the drop kills everybody, and no question has been answered
    obtain ⟨exited, none, -⟩ := kill_of_not_reaped hr
    refine ⟨exited, iff_of_true (isAlive_eq_false_iff.2 ⟨exited, none⟩) ?_⟩
    intro before a after g₁ split hrun₁ asks exited₁
    have reaped := reaped_of_asks hrun split hrun₁ asks exited₁
    rw [hr] at reaped
    cases reaped.1
  | true =>
    -- the drop does nothing, so those are left who are there before it
    rw [kill_of_reaped hr, isAlive_eq_false_iff]
    refine ⟨told hr, ?_⟩
    constructor
    · intro gone before a after g₁ split hrun₁ asks exited₁
      obtain ⟨-, none⟩ := gone
      rw [← (reaped_of_asks hrun split hrun₁ asks exited₁).2, none]
    · intro ended
      refine ⟨told hr, ?_⟩
      by_contra left
      obtain ⟨before, a, after, g₁, split, hrun₁, asks, exited, same⟩ := exists_asks hrun hr left
      exact left (same.symm.trans (ended before a after g₁ split hrun₁ asks exited))

/-- A worker that exits by itself and is waited for leaves alone what it has started; killed in
between, it does not. -/
theorem drop_isAlive_waited :
    (∃ g, start.run [.fork 7, .finish (.code 3), .wait] = some g ∧
      g.drop.leads = false ∧ g.drop.isAlive ≠ false) ∧
    (∃ g, start.run [.fork 7, .finish (.code 3), .kill, .wait] = some g ∧
      g.drop.isAlive = false) := by
  constructor
  · refine ⟨_, rfl, rfl, fun gone => ?_⟩
    have ended := (@drop_isAlive_iff _ [.fork 7, .finish (.code 3), .wait] rfl).2.1 gone
    have none := ended [.fork 7, .finish (.code 3)] .wait [] _ rfl rfl rfl rfl
    cases none
  · exact ⟨_, rfl, rfl⟩

end Group

end SnippetRunner.Child
