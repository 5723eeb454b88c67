import Mathlib.Data.ENat.Lattice
import SnippetRunner.Adapter.Basic
import SnippetRunner.Proofs.Worker.Taking

/-!
# What comes first

Three things can end an execution: a termination, what its worker comes to, and that its time is up.
What counts is which of them is first, and a tie goes to the termination, then to the worker. That is
so because a look at an execution sees what has happened until then, in this order; so it is enough
that somebody looks at the first moment at which one of the three is there to see.
-/

namespace SnippetRunner.Adapter

open Worker (Ending Message)

/-- What there is to see of an execution at some moment, and what becomes of it then. -/
structure Moment where
  time : Nat
  /-- A termination has overtaken the execution. -/
  isStopped : Bool
  /-- What the worker has come to, if it has come to an end. -/
  verdict : Option Ending
  /-- Somebody looks at the execution. -/
  isLookedAt : Bool
  /-- The messages that the execution takes. -/
  taken : List Message
  /-- The workers that run before the look and not after it. -/
  killed : List WorkerId

namespace Moment

/-- How an execution ends at a moment, unless it goes on. -/
def ending? (limit : Nat) (m : Moment) : Option Ending :=
  if m.isLookedAt then Ending.choose m.isStopped m.verdict (decide (limit ≤ m.time)) else none

/-- The time of the first moment of some kind; where there is none, it never comes. -/
def first (p : Moment → Bool) (ms : List Moment) : ℕ∞ :=
  ((ms.find? p).map fun m => (m.time : ℕ∞)).getD ⊤

/-- When a termination overtakes an execution. -/
def stopTime (ms : List Moment) : ℕ∞ := first Moment.isStopped ms

/-- When its worker comes to an end. -/
def verdictTime (ms : List Moment) : ℕ∞ := first (fun m => m.verdict.isSome) ms

/-- What its worker comes to. -/
def ownEnding? (ms : List Moment) : Option Ending :=
  (ms.find? fun m => m.verdict.isSome).bind Moment.verdict

/-- All messages that it takes. -/
def received (ms : List Moment) : List Message := ms.flatMap Moment.taken

/-- All workers that are killed by looks at it. -/
def victims (ms : List Moment) : List WorkerId := ms.flatMap Moment.killed

/-- Moments one after the other. -/
def InOrder (ms : List Moment) : Prop := ms.Pairwise fun m n => m.time < n.time

variable {ms : List Moment} {m n : Moment} {p : Moment → Bool} {limit : Nat}

theorem received_concat (ms : List Moment) (m : Moment) :
    received (ms ++ [m]) = received ms ++ m.taken := by
  simp [received]

theorem victims_concat (ms : List Moment) (m : Moment) :
    victims (ms ++ [m]) = victims ms ++ m.killed := by
  simp [victims]

/-- Of moments in order there is one of each time. -/
theorem InOrder.eq_of_time (h : InOrder ms) (hm : m ∈ ms) (hn : n ∈ ms) (same : m.time = n.time) :
    m = n := by
  unfold InOrder at h
  induction ms with
  | nil => cases hm
  | cons a ms ih =>
    rw [List.pairwise_cons] at h
    rcases List.mem_cons.1 hm with mFirst | mBehind
    · rcases List.mem_cons.1 hn with nFirst | nBehind
      · exact mFirst.trans nFirst.symm
      · rw [mFirst] at same
        exact absurd same (Nat.ne_of_lt (h.1 n nBehind))
    · rcases List.mem_cons.1 hn with nFirst | nBehind
      · rw [nFirst] at same
        exact absurd same.symm (Nat.ne_of_lt (h.1 m mBehind))
      · exact ih h.2 mBehind nBehind

/-- The first moment of a kind is not later than any moment of that kind. -/
theorem InOrder.first_le (h : InOrder ms) (inside : m ∈ ms) (holds : p m = true) :
    first p ms ≤ m.time := by
  unfold InOrder at h
  unfold first
  induction ms with
  | nil => cases inside
  | cons a ms ih =>
    rw [List.pairwise_cons] at h
    cases here : p a with
    | true =>
      rw [List.find?_cons_of_pos here]
      show (a.time : ℕ∞) ≤ m.time
      rw [Nat.cast_le]
      rcases List.mem_cons.1 inside with rfl | behind
      · exact Nat.le_refl _
      · exact Nat.le_of_lt (h.1 m behind)
    | false =>
      rw [List.find?_cons_of_neg (by simp [here])]
      rcases List.mem_cons.1 inside with rfl | behind
      · rw [here] at holds
        cases holds
      · exact ih h.2 behind

/-- The moment at which a kind comes first is the first one of its kind. -/
theorem InOrder.find?_of_first (h : InOrder ms) (inside : m ∈ ms) (reached : first p ms = m.time) :
    ms.find? p = some m := by
  unfold first at reached
  cases found : ms.find? p with
  | none =>
    rw [found] at reached
    exact absurd reached.symm (ENat.natCast_ne_top _)
  | some n =>
    rw [found] at reached
    have same : n.time = m.time := Nat.cast_injective reached
    rw [h.eq_of_time (List.mem_of_find?_eq_some found) inside same]

/-- A moment before which there is none of some kind is of that kind if it is the first one. -/
theorem InOrder.first_le_iff (h : InOrder ms) (inside : m ∈ ms) (early : (m.time : ℕ∞) ≤ first p ms) :
    first p ms ≤ m.time ↔ p m = true := by
  constructor
  · intro le
    exact List.find?_some (h.find?_of_first inside (le_antisymm le early))
  · exact h.first_le inside

/-- The first of the three moments at which an execution may end, the last of which comes at once. -/
noncomputable def due (limit : Nat) (ms : List Moment) : ℕ∞ :=
  min (stopTime ms) (min (verdictTime ms) limit)

/-- Before that there is nothing to see. -/
theorem InOrder.ending?_of_lt (h : InOrder ms) (inside : m ∈ ms)
    (early : (m.time : ℕ∞) < due limit ms) : m.ending? limit = none := by
  unfold due at early
  rw [lt_min_iff, lt_min_iff] at early
  obtain ⟨noStop, noVerdict, noLimit⟩ := early
  have wanted : m.isStopped = false := by
    cases stopped : m.isStopped with
    | false => rfl
    | true => exact absurd (h.first_le inside stopped) (not_le_of_gt noStop)
  have quiet : m.verdict = none := by
    cases verdict : m.verdict with
    | none => rfl
    | some e =>
      have come : (fun n : Moment => n.verdict.isSome) m = true := by simp [verdict]
      exact absurd (h.first_le inside come) (not_le_of_gt noVerdict)
  have inTime : ¬limit ≤ m.time := by
    intro le
    exact absurd (Nat.cast_le.2 le) (not_le_of_gt noLimit)
  unfold ending?
  rw [wanted, quiet, decide_eq_false inTime]
  split <;> rfl

/-- A look at that moment ends the execution. -/
theorem InOrder.ending?_of_due (h : InOrder ms) (inside : m ∈ ms) (looked : m.isLookedAt = true)
    (now : (m.time : ℕ∞) = due limit ms) : m.ending? limit ≠ none := by
  intro goesOn
  unfold ending? at goesOn
  rw [if_pos looked] at goesOn
  have noStop : (m.time : ℕ∞) ≤ stopTime ms := now ▸ min_le_left ..
  have noVerdict : (m.time : ℕ∞) ≤ verdictTime ms := now ▸ (min_le_right ..).trans (min_le_left ..)
  -- at none of the three times it would have gone on
  have wanted : due limit ms < stopTime ms := by
    rw [← now]
    refine lt_of_le_of_ne noStop fun same => ?_
    have stopped : m.isStopped = true := (h.first_le_iff inside noStop).1 same.ge
    rw [stopped] at goesOn
    cases goesOn
  have quiet : due limit ms < verdictTime ms := by
    rw [← now]
    refine lt_of_le_of_ne noVerdict fun same => ?_
    have come : m.verdict.isSome = true := (h.first_le_iff inside noVerdict).1 same.ge
    obtain ⟨ending, verdict⟩ := Option.isSome_iff_exists.1 come
    rw [verdict] at goesOn
    cases stopped : m.isStopped <;> rw [stopped] at goesOn <;> cases goesOn
  have inTime : due limit ms < limit := by
    rw [← now, Nat.cast_lt]
    refine Nat.lt_of_not_le fun late => ?_
    rw [decide_eq_true late] at goesOn
    cases stopped : m.isStopped <;> cases verdict : m.verdict <;> rw [stopped, verdict] at goesOn <;>
      cases goesOn
  exact absurd (lt_min wanted (lt_min quiet inTime)) (lt_irrefl _)

/-- If somebody looks at that moment, it is the one that ends the execution. -/
theorem InOrder.time_eq_due {before behind : List Moment} (h : InOrder (before ++ m :: behind))
    (quiet : ∀ n ∈ before, n.ending? limit = none) (ends : m.ending? limit ≠ none)
    (looked : ∃ n ∈ before ++ m :: behind, n.isLookedAt = true ∧
      (n.time : ℕ∞) = due limit (before ++ m :: behind)) :
    (m.time : ℕ∞) = due limit (before ++ m :: behind) := by
  obtain ⟨n, inside, looks, now⟩ := looked
  have here : m ∈ before ++ m :: behind := List.mem_append_right _ (List.mem_cons_self ..)
  rcases List.mem_append.1 inside with earlier | rest
  · exact absurd (quiet n earlier) (h.ending?_of_due inside looks now)
  · rcases List.mem_cons.1 rest with same | later
    · exact same ▸ now
    · have lt : m.time < n.time :=
        (List.pairwise_cons.1 (List.pairwise_append.1 h).2.1).1 n later
      exact absurd (h.ending?_of_lt here (now ▸ Nat.cast_lt.2 lt)) ends

/-- How an execution ends: as told by what comes first of a termination, what its worker comes to, and
that its time is up. A tie goes to the termination, and then to the worker. -/
structure Decided (limit : Nat) (ms : List Moment) (ending : Ending) : Prop where
  terminated : ending = .terminated ↔ stopTime ms ≤ verdictTime ms ∧ stopTime ms ≤ limit
  own : some ending = ownEnding? ms ↔ verdictTime ms < stopTime ms ∧ verdictTime ms ≤ limit
  outOfTime : ending = .outOfTime ↔ limit < stopTime ms ∧ limit < verdictTime ms

/-- What a worker comes to is neither a termination nor that time is up. -/
def IsOwn (ending : Ending) : Prop := ending ≠ .terminated ∧ ending ≠ .outOfTime

/-- What comes first of three, where a tie goes to the first one and then to the second one. -/
theorem first_of_three {S V L : ℕ∞} :
    ((S ≤ min S (min V L)) ↔ S ≤ V ∧ S ≤ L) ∧
    ((¬S ≤ min S (min V L) ∧ V ≤ min S (min V L)) ↔ V < S ∧ V ≤ L) ∧
    ((¬S ≤ min S (min V L) ∧ ¬V ≤ min S (min V L)) ↔ L < S ∧ L < V) := by
  simp only [le_min_iff, le_refl, true_and]
  constructor
  · grind
  · grind

/-- What a worker has come to is an end of its own. -/
theorem isOwn_of_ownEnding? (own : ∀ n ∈ ms, ∀ e, n.verdict = some e → IsOwn e) {ending : Ending}
    (is : some ending = ownEnding? ms) : IsOwn ending := by
  obtain ⟨n, found, verdict⟩ := Option.bind_eq_some_iff.1 is.symm
  exact own n (List.mem_of_find?_eq_some found) ending verdict

/-- The moment at which the first of the three is there to see, and somebody looks, decides. -/
theorem InOrder.decided (h : InOrder ms) {ending : Ending} (inside : m ∈ ms)
    (now : (m.time : ℕ∞) = due limit ms) (ends : m.ending? limit = some ending)
    (own : ∀ n ∈ ms, ∀ e, n.verdict = some e → IsOwn e) : Decided limit ms ending := by
  have noStop : (m.time : ℕ∞) ≤ stopTime ms := now ▸ min_le_left ..
  have noVerdict : (m.time : ℕ∞) ≤ verdictTime ms := now ▸ (min_le_right ..).trans (min_le_left ..)
  have stop : stopTime ms ≤ due limit ms ↔ m.isStopped = true := now ▸ h.first_le_iff inside noStop
  have verdict : verdictTime ms ≤ due limit ms ↔ m.verdict.isSome = true :=
    now ▸ h.first_le_iff inside noVerdict
  obtain ⟨first, second, third⟩ := @first_of_three (stopTime ms) (verdictTime ms) limit
  unfold ending? at ends
  split at ends
  case isFalse => cases ends
  rcases Ending.choose_eq_some_iff.1 ends with ⟨stopped, rfl⟩ | ⟨wanted, is⟩ | ⟨wanted, none, -, rfl⟩
  · have stopped := stop.2 stopped
    refine ⟨iff_of_true rfl (first.1 stopped), iff_of_false ?_ ?_, iff_of_false nofun ?_⟩
    · exact fun is => (isOwn_of_ownEnding? own is).1 rfl
    · exact fun worker => (second.2 worker).1 stopped
    · exact fun late => (third.2 late).1 stopped
  · have wanted : ¬stopTime ms ≤ due limit ms := by simp [stop, wanted]
    have come : verdictTime ms ≤ due limit ms := verdict.2 (by simp [is])
    have isOwn := own m inside ending is
    refine ⟨iff_of_false isOwn.1 ?_, iff_of_true ?_ (second.1 ⟨wanted, come⟩), iff_of_false isOwn.2 ?_⟩
    · exact fun stopped => wanted (first.2 stopped)
    · unfold ownEnding?
      rw [h.find?_of_first inside (le_antisymm (now ▸ come) noVerdict)]
      exact is.symm
    · exact fun late => (third.2 late).2 come
  · have wanted : ¬stopTime ms ≤ due limit ms := by simp [stop, wanted]
    have quiet : ¬verdictTime ms ≤ due limit ms := by simp [verdict, none]
    refine ⟨iff_of_false nofun ?_, iff_of_false ?_ ?_, iff_of_true rfl (third.1 ⟨wanted, quiet⟩)⟩
    · exact fun stopped => wanted (first.2 stopped)
    · exact fun is => (isOwn_of_ownEnding? own is).2 rfl
    · exact fun worker => quiet (second.2 worker).2

end Moment

end SnippetRunner.Adapter
