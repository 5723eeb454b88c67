import SnippetRunner.Adapter.Basic

/-!
# What the sections of an adapter do

Each section that changes the state of an adapter, by the few cases that it distinguishes. Arguments
about runs cite these equations and do not look into the sections again.
-/

namespace SnippetRunner.Adapter.State

variable {s : State} {o : Nat} {t : Ticket} {e : Failure} {w : WorkerId} {language : String}

/-! ## Tickets -/

theorem isOutdated_eq_false_iff : s.isOutdated t = false ↔ t.generation = s.generation := by
  unfold isOutdated
  rw [bne_eq_false_iff_eq, eq_comm]

theorem isOutdated_eq_true_iff : s.isOutdated t = true ↔ t.generation ≠ s.generation := by
  unfold isOutdated
  rw [bne_iff_ne, ne_comm]

theorem isCancelled_eq_true_iff : s.isCancelled t = true ↔ t.token ∈ s.cancelled := by
  unfold isCancelled
  rw [List.contains_iff_mem]

/-- An execution is awaited while its generation lasts and the adapter executes. -/
theorem awaits_eq_true_iff :
    s.awaits t = true ↔ t.generation = s.generation ∧ s.phase = .executing := by
  unfold awaits
  rw [Bool.and_eq_true, Bool.not_eq_true', isOutdated_eq_false_iff, beq_iff_eq]

/-! ## Starting -/

theorem observe_of_ready (h : s.phase = .ready) : s.observe = none := if_pos h

theorem observe_of_not_ready (h : s.phase ≠ .ready) : s.observe = some s.attempts := if_neg h

/-- A failure is shared when starts have begun since the caller asked and the last one has failed. -/
theorem sharedFailure?_eq_some_iff :
    s.sharedFailure? o = some e ↔ s.attempts ≠ o ∧ s.lastStart = some (.error e) := by
  unfold sharedFailure?
  split
  · simp_all
  · rename_i h
    split <;> simp_all

theorem enter_of_running (h : s.phase = .ready ∨ s.phase = .executing) :
    s.enter o = (.unneeded, s) := by
  unfold enter
  rw [if_pos h]

theorem enter_of_shared (h : ¬(s.phase = .ready ∨ s.phase = .executing))
    (shared : s.sharedFailure? o = some e) : s.enter o = (.failed e, s) := by
  unfold enter
  rw [if_neg h, shared]

theorem enter_of_not_shared (h : ¬(s.phase = .ready ∨ s.phase = .executing))
    (shared : s.sharedFailure? o = none) : s.enter o = (.begins s.ticket, s.begin) := by
  unfold enter
  rw [if_neg h, shared]

theorem leave_of_outdated {q : Except Failure WorkerId} (h : s.isOutdated t = true) :
    s.leave language t q = (.error (overtaken language),
      { s with lastStart := some (.error (overtaken language)) }) := by
  unfold leave
  rw [if_pos h]

theorem leave_of_ok (h : s.isOutdated t = false) :
    s.leave language t (.ok w) = (.ok (), { s with
      phase := .ready, worker := some w, kill := some w, lastStart := some (.ok ()) }) := by
  unfold leave
  rw [if_neg (by simp [h])]

theorem leave_of_error (h : s.isOutdated t = false) :
    s.leave language t (.error e) =
      (.error e, { s with phase := .uninitialized, lastStart := some (.error e) }) := by
  unfold leave
  rw [if_neg (by simp [h])]

/-! ## Executing -/

theorem checkOut_of_ready (h : s.phase = .ready) (hw : s.worker = some w) :
    s.checkOut language = (.ok (w, s.ticket), { s with phase := .executing, worker := none }) := by
  unfold checkOut
  rw [h]
  simp only [hw]

theorem checkOut_of_bare (h : s.phase = .ready) (hw : s.worker = none) :
    s.checkOut language = (.error (.notInitialized language), { s with phase := .uninitialized }) := by
  unfold checkOut
  rw [h]
  simp only [hw]

theorem checkOut_of_executing (h : s.phase = .executing) :
    s.checkOut language = (.error (.busy language), s) := by
  unfold checkOut
  rw [h]

theorem checkOut_of_idle (hr : s.phase ≠ .ready) (he : s.phase ≠ .executing) :
    s.checkOut language = (.error (.notInitialized language), s) := by
  unfold checkOut
  split <;> simp_all

theorem checkIn_of_awaits (h : s.awaits t = true) :
    s.checkIn w t = { s with phase := .ready, worker := some w } :=
  if_pos h

theorem checkIn_of_not_awaits (h : s.awaits t = false) : s.checkIn w t = s :=
  if_neg (by simp [h])

theorem discard_of_awaits (h : s.awaits t = true) :
    s.discard t = (true, { s with phase := .uninitialized, kill := none }) :=
  if_pos h

theorem discard_of_not_awaits (h : s.awaits t = false) : s.discard t = (false, s) :=
  if_neg (by simp [h])

/-! ## The clock -/

/-- The part of the state that tells generations apart. -/
def clock (s : State) : Nat × Nat × List Nat := (s.generation, s.token, s.cancelled)

@[simp] theorem clock_begin : s.begin.clock = s.clock := rfl

@[simp] theorem clock_leave {q : Except Failure WorkerId} :
    (s.leave language t q).2.clock = s.clock := by
  unfold leave
  split
  · rfl
  · cases q <;> rfl

@[simp] theorem clock_checkOut : (s.checkOut language).2.clock = s.clock := by
  unfold checkOut
  split
  · split <;> rfl
  · rfl
  · rfl

@[simp] theorem clock_checkIn : (s.checkIn w t).clock = s.clock := by
  unfold checkIn
  split <;> rfl

@[simp] theorem clock_discard : (s.discard t).2.clock = s.clock := by
  unfold discard
  split <;> rfl

/-! ## The tally -/

/-- What the state keeps of the starts: how many have begun, and how the last one ended. -/
def tally (s : State) : Nat × Option (Except Failure Unit) := (s.attempts, s.lastStart)

@[simp] theorem tally_checkOut : (s.checkOut language).2.tally = s.tally := by
  unfold checkOut
  split
  · split <;> rfl
  · rfl
  · rfl

@[simp] theorem tally_checkIn : (s.checkIn w t).tally = s.tally := by
  unfold checkIn
  split <;> rfl

@[simp] theorem tally_discard : (s.discard t).2.tally = s.tally := by
  unfold discard
  split <;> rfl

/-- The outcome of a start that ends is the last one. -/
@[simp] theorem tally_leave {q : Except Failure WorkerId} :
    (s.leave language t q).2.tally = (s.attempts, some (s.leave language t q).1) := by
  cases outdated : s.isOutdated t with
  | true =>
    rw [leave_of_outdated outdated]
    rfl
  | false =>
    cases q with
    | ok w =>
      rw [leave_of_ok outdated]
      rfl
    | error e =>
      rw [leave_of_error outdated]
      rfl

end SnippetRunner.Adapter.State
