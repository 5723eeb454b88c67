import SnippetRunner.Time.Contest

/-!
# One budget for many races

Several operations may race against one deadline, one after the other, and time may go by in between. They
share what time there was at the start. However they are arranged, what has gone by and what is left make up
the timeout until nothing is left, and then nothing is left for good; an operation is done in time exactly if
it takes no more than what is left when it begins; and a race that is lost takes just that.

All times are whole milliseconds, since the timer goes off at these. The polls of a race are those of its
runtime: one comes when the operation or the timer is ready, and there may be any others.
-/

namespace SnippetRunner

/-! ## Whole milliseconds -/

/-- The clock shows whole milliseconds. -/
def Clock.IsWhole (c : Clock) : Prop := 1000000 ∣ c.nanos

/-- The span is one of whole milliseconds. -/
def Span.IsWhole (s : Span) : Prop := 1000000 ∣ s.nanos

theorem Span.isWhole_ofMillis (ms : Nat) : (ofMillis ms).IsWhole := Nat.dvd_mul_left 1000000 ms

/-- A deadline that is whole milliseconds away from whole milliseconds. -/
structure Deadline.IsWhole (d : Deadline) : Prop where
  start : d.start.IsWhole
  timeout : d.timeout.IsWhole

namespace Clock

variable {c : Clock} {s w l : Span}

theorem IsWhole.advance (hc : c.IsWhole) (hs : s.IsWhole) : (c.advance s).IsWhole :=
  Nat.dvd_add hc hs

theorem tick_of_whole (hc : c.IsWhole) : c.tick * 1000000 = c.nanos :=
  Nat.div_mul_cancel hc

/-- An alarm for whole milliseconds goes off after just this time. -/
theorem alarm_of_whole (hc : c.IsWhole) (hs : s.IsWhole) :
    c.alarm s * 1000000 = c.nanos + s.nanos := by
  unfold IsWhole Span.IsWhole at *
  unfold alarm tick
  omega

theorem untilTick_alarm (hc : c.IsWhole) (hs : s.IsWhole) :
    c.untilTick (c.alarm s) = c.advance s := by
  have goesOff := alarm_of_whole hc hs
  have now := tick_of_whole hc
  unfold untilTick advance
  rw [Clock.mk.injEq]
  omega

theorem alarm_le_alarm_iff (hc : c.IsWhole) (hw : w.IsWhole) (hl : l.IsWhole) :
    c.alarm w ≤ c.alarm l ↔ w.nanos ≤ l.nanos := by
  have first := alarm_of_whole hc hw
  have second := alarm_of_whole hc hl
  omega

end Clock

section Races

variable {c : Clock} {w l : Span}

/-- An operation is in time if it takes no longer than the limit. -/
theorem race_of_le (hc : c.IsWhole) (hw : w.IsWhole) (hl : l.IsWhole) (inTime : w.nanos ≤ l.nanos) :
    race c (some w) l = (.completed, c.advance w) := by
  unfold race
  -- an operation that takes no time is done before the timer is even asked
  by_cases atOnce : w.nanos = 0
  · have same : c.advance w = c := by
      unfold Clock.advance
      rw [atOnce]
      rfl
    simp only [if_pos atOnce, same]
  · simp only [if_neg atOnce, if_pos ((Clock.alarm_le_alarm_iff hc hw hl).2 inTime),
      Clock.untilTick_alarm hc hw]

/-- If it takes longer, the race takes as long as the limit. -/
theorem race_of_lt (hc : c.IsWhole) (hw : w.IsWhole) (hl : l.IsWhole) (late : l.nanos < w.nanos) :
    race c (some w) l = (.expired, c.advance l) := by
  have some : w.nanos ≠ 0 := by omega
  have later : ¬ c.alarm w ≤ c.alarm l := by
    rw [Clock.alarm_le_alarm_iff hc hw hl]
    omega
  unfold race
  simp only [if_neg some, if_neg later, Clock.untilTick_alarm hc hl]

/-- So does the race of an operation that never ends. -/
theorem race_none (hc : c.IsWhole) (hl : l.IsWhole) : race c none l = (.expired, c.advance l) := by
  unfold race
  simp only [Clock.untilTick_alarm hc hl]

end Races

/-! ## Polls -/

namespace Contest

variable {α : Type} {k : Contest α} {now finish : Clock} {o : Outcome α} {value : α} {c : Clock} {w l : Span}

/-- However the race is polled, as long as it is polled at this time: it is undecided before, and from then
on it has come out like this, and the operation has been stopped so many times. -/
def Ends (k : Contest α) (finish : Clock) (o : Outcome α) (stops : Nat) : Prop :=
  ∀ early late : List Clock, (∀ now ∈ early, now.nanos < finish.nanos) →
    ((k.polls early).outcome = none ∧ (k.polls early).stops = 0) ∧
      (k.polls (early ++ finish :: late)).outcome = some o ∧
        (k.polls (early ++ finish :: late)).stops = stops

theorem poll_of_over (settled : k.outcome = some o) : k.poll now = k := by
  unfold poll
  rw [settled]

theorem poll_of_ready (running : k.outcome = none) (ready : k.operation now = some value) :
    k.poll now = { k with outcome := some (.completed value) } := by
  unfold poll
  rw [running]
  simp only [ready]

theorem poll_of_due (running : k.outcome = none) (busy : k.operation now = none)
    (due : k.due.nanos ≤ now.nanos) :
    k.poll now = { k with outcome := some .timedOut, stops := k.stops + 1 } := by
  unfold poll
  rw [running]
  simp only [busy, if_pos due]

theorem poll_of_waiting (running : k.outcome = none) (busy : k.operation now = none)
    (early : now.nanos < k.due.nanos) : k.poll now = k := by
  unfold poll
  rw [running]
  simp only [busy, if_neg (Nat.not_le.2 early)]

/-- Polls that each change nothing change nothing together. -/
theorem polls_of_fixed (times : List Clock) (fixed : ∀ now ∈ times, k.poll now = k) :
    k.polls times = k := by
  induction times with
  | nil => rfl
  | cons now times ih =>
    show (k.poll now).polls times = k
    rw [fixed now (List.mem_cons_self ..)]
    exact ih fun later inside => fixed later (List.mem_cons_of_mem _ inside)

/-- A race ends when a poll first changes it, if that poll ends it. -/
theorem ends_of_poll (running : k.outcome = none) (fresh : k.stops = 0)
    (waits : ∀ now : Clock, now.nanos < finish.nanos → k.poll now = k)
    (settled : (k.poll finish).outcome = some o) : k.Ends finish o (k.poll finish).stops := by
  intro early late before
  have first : k.polls early = k := polls_of_fixed early fun now inside => waits now (before now inside)
  have all : k.polls (early ++ finish :: late) = k.poll finish := by
    unfold polls at first ⊢
    rw [List.foldl_append, first]
    exact polls_of_fixed late fun now _ => poll_of_over settled
  rw [first, all]
  exact ⟨⟨running, fresh⟩, settled, rfl⟩

/-- The operation is asked before the timer, so it is in time even if it takes as long as the limit. -/
theorem ends_of_le (inTime : w.nanos ≤ l.nanos) :
    (begin c (c.takes (some w) value) l).Ends (c.advance w) (.completed value) 0 := by
  have ready : c.takes (some w) value (c.advance w) = some value := if_pos (Nat.le_refl _)
  have ended := poll_of_ready (k := begin c (c.takes (some w) value) l) rfl ready
  have waits : ∀ now : Clock, now.nanos < (c.advance w).nanos →
      (begin c (c.takes (some w) value) l).poll now = begin c (c.takes (some w) value) l := by
    intro now early
    refine poll_of_waiting rfl (if_neg (Nat.not_le.2 early)) ?_
    -- the timer is not due before the operation is ready
    exact Nat.lt_of_lt_of_le early (Nat.add_le_add_left inTime c.nanos)
  have ends := ends_of_poll rfl rfl waits (congrArg outcome ended)
  rwa [ended] at ends

/-- The timer goes off at the limit if the operation is not ready by then, and stops it once. -/
theorem ends_of_busy {work : Option Span}
    (busy : ∀ now : Clock, now.nanos ≤ (c.advance l).nanos → c.takes work value now = none) :
    (begin c (c.takes work value) l).Ends (c.advance l) .timedOut 1 := by
  have ended := poll_of_due (k := begin c (c.takes work value) l) rfl
    (busy (c.advance l) (Nat.le_refl _)) (Nat.le_refl _)
  have waits : ∀ now : Clock, now.nanos < (c.advance l).nanos →
      (begin c (c.takes work value) l).poll now = begin c (c.takes work value) l :=
    fun now early => poll_of_waiting rfl (busy now (Nat.le_of_lt early)) early
  have ends := ends_of_poll rfl rfl waits (congrArg outcome ended)
  rwa [ended] at ends

end Contest

/-! ## Deadlines -/

/-- What a program does with a deadline. -/
inductive Move where
  /-- Time goes by. -/
  | wait (ms : Nat)
  /-- An operation races, which takes some time or never ends. -/
  | race (work : Option Nat)
  deriving DecidableEq, Repr

def Move.isRace : Move → Bool
  | .wait _ => false
  | .race _ => true

namespace Deadline

variable {d : Deadline} {c : Clock} {α : Type} {value : α}

/-- The clock after a move. -/
def move (d : Deadline) (c : Clock) : Move → Clock
  | .wait ms => c.advance (.ofMillis ms)
  | .race work => (d.race c (work.map .ofMillis)).2

/-- The clock after some moves, of which the first one is made when the deadline is set. -/
def clock (d : Deadline) (moves : List Move) : Clock := moves.foldl d.move d.start

/-- What has gone by and what is left make up the timeout, until nothing is left. -/
structure Balanced (d : Deadline) (c : Clock) : Prop where
  budget : (d.elapsed c).nanos ≤ d.timeout.nanos → (d.elapsed c).plus (d.remaining c) = d.timeout
  spent : d.timeout.nanos ≤ (d.elapsed c).nanos → d.remaining c = .zero
  expired : d.isExpired c = true ↔ d.remaining c = .zero

theorem nanos_remaining (d : Deadline) (c : Clock) :
    (d.remaining c).nanos = d.timeout.nanos - (c.nanos - d.start.nanos) := rfl

theorem remaining_eq_zero_iff : d.remaining c = .zero ↔ d.timeout.nanos ≤ (d.elapsed c).nanos := by
  unfold remaining Span.minus Span.zero
  rw [Span.mk.injEq]
  exact Nat.sub_eq_zero_iff_le

theorem balanced (d : Deadline) (c : Clock) : d.Balanced c := by
  refine ⟨fun inside => ?_, remaining_eq_zero_iff.2, ?_⟩
  · exact congrArg Span.mk (Nat.add_sub_of_le inside)
  · rw [remaining_eq_zero_iff]
    exact decide_eq_true_iff

theorem IsWhole.remaining (hd : d.IsWhole) (hc : c.IsWhole) : (d.remaining c).IsWhole :=
  Nat.dvd_sub hd.timeout (Nat.dvd_sub hc hd.start)

/-- A race whose operation takes too long, or never ends, takes what is left. -/
theorem race_of_busy (hd : d.IsWhole) (hc : c.IsWhole) {work : Option Span}
    (busy : ∀ w ∈ work, w.IsWhole ∧ (d.remaining c).nanos < w.nanos) :
    d.race c work = (.expired, c.advance (d.remaining c)) := by
  cases work with
  | none => exact race_none hc (hd.remaining hc)
  | some w => exact race_of_lt hc (busy w rfl).1 (hd.remaining hc) (busy w rfl).2

theorem takes_eq_none {work : Option Span} {l : Span} (busy : ∀ w ∈ work, l.nanos < w.nanos)
    {now : Clock} (early : now.nanos ≤ (c.advance l).nanos) : c.takes work value now = none := by
  cases work with
  | none => rfl
  | some w =>
    have longer := busy w rfl
    have before : now.nanos ≤ c.nanos + l.nanos := early
    have busyStill : ¬ c.nanos + w.nanos ≤ now.nanos := by omega
    exact if_neg busyStill

/-- A race takes as long as its operation, or as long as there is time left if that is less. -/
theorem move_race (hd : d.IsWhole) (hc : c.IsWhole) (work : Option Nat) :
    ∃ s : Span, s.IsWhole ∧ s.nanos ≤ (d.remaining c).nanos ∧ d.move c (.race work) = c.advance s := by
  have lost : ∀ work : Option Span, (∀ w ∈ work, w.IsWhole ∧ (d.remaining c).nanos < w.nanos) →
      (d.race c work).2 = c.advance (d.remaining c) := by
    intro work busy
    rw [race_of_busy hd hc busy]
  unfold move
  simp only
  cases work with
  | none => exact ⟨d.remaining c, hd.remaining hc, Nat.le_refl _, lost none nofun⟩
  | some w =>
    have whole := Span.isWhole_ofMillis w
    rw [Option.map_some]
    generalize Span.ofMillis w = s at whole
    -- a tie goes to the operation
    rcases Nat.lt_or_ge (d.remaining c).nanos s.nanos with late | inTime
    · refine ⟨d.remaining c, hd.remaining hc, Nat.le_refl _, lost (some s) ?_⟩
      rintro w' ⟨⟩
      exact ⟨whole, late⟩
    · refine ⟨s, whole, inTime, ?_⟩
      rw [race, race_of_le hc whole (hd.remaining hc) inTime]

/-- One move keeps to whole milliseconds, and the clock does not go back. A race ends when the time is up, at
the latest, or at once if it was up before. -/
theorem move_spec (hd : d.IsWhole) (hc : c.IsWhole) (m : Move) :
    (d.move c m).IsWhole ∧ c.nanos ≤ (d.move c m).nanos ∧
      (m.isRace = true → d.start.nanos ≤ c.nanos →
        (d.move c m).nanos ≤ max c.nanos (d.start.nanos + d.timeout.nanos)) := by
  cases m with
  | wait ms => exact ⟨hc.advance (Span.isWhole_ofMillis ms), Nat.le_add_right _ _, nofun⟩
  | race work =>
    obtain ⟨s, whole, short, ends⟩ := move_race hd hc work
    rw [ends]
    refine ⟨hc.advance whole, Nat.le_add_right _ _, fun _ later => ?_⟩
    -- what is left ends at the deadline, and it is nothing once that has passed
    rw [nanos_remaining] at short
    show c.nanos + s.nanos ≤ _
    omega

/-- So do all moves together. -/
theorem foldl_move_spec (hd : d.IsWhole) (moves : List Move) (hc : c.IsWhole) :
    (moves.foldl d.move c).IsWhole ∧ c.nanos ≤ (moves.foldl d.move c).nanos ∧
      ((∀ m ∈ moves, m.isRace = true) → d.start.nanos ≤ c.nanos →
        (moves.foldl d.move c).nanos ≤ max c.nanos (d.start.nanos + d.timeout.nanos)) := by
  induction moves generalizing c with
  | nil => exact ⟨hc, Nat.le_refl _, fun _ _ => Nat.le_max_left _ _⟩
  | cons m moves ih =>
    obtain ⟨whole, onward, first⟩ := move_spec hd hc m
    obtain ⟨whole', onward', rest⟩ := ih whole
    rw [List.foldl_cons]
    refine ⟨whole', Nat.le_trans onward onward', fun races later => ?_⟩
    have one := first (races m (List.mem_cons_self ..)) later
    have others := rest (fun m inside => races m (List.mem_cons_of_mem _ inside))
      (Nat.le_trans later onward)
    omega

/-- What all races against one deadline share, whatever has gone by and whatever has raced before. What has
gone by and what is left make up the timeout until the time is up, and then nothing is left any more. An
operation that takes no more than what is left is done in time, and its value is the outcome. Any other one is
given up after what is left, and is stopped then, once. Each race ends when the time is up, at the latest, or
at once if it was up before; so races alone never go on beyond the deadline. -/
theorem one_budget (hd : d.IsWhole) (moves : List Move) :
    (d.Balanced (d.clock moves) ∧
      ∀ more, d.isExpired (d.clock moves) = true → d.isExpired (d.clock (moves ++ more)) = true) ∧
    (∀ {α : Type} (value : α) (w : Nat), (Span.ofMillis w).nanos ≤ (d.remaining (d.clock moves)).nanos →
      d.race (d.clock moves) (some (.ofMillis w)) =
          (.completed, (d.clock moves).advance (.ofMillis w)) ∧
        (d.contest (d.clock moves) ((d.clock moves).takes (some (.ofMillis w)) value)).Ends
          ((d.clock moves).advance (.ofMillis w)) (.completed value) 0) ∧
    (∀ {α : Type} (value : α) (work : Option Nat),
      (∀ w ∈ work, (d.remaining (d.clock moves)).nanos < (Span.ofMillis w).nanos) →
        d.race (d.clock moves) (work.map .ofMillis) =
            (.expired, (d.clock moves).advance (d.remaining (d.clock moves))) ∧
          (d.contest (d.clock moves) ((d.clock moves).takes (work.map .ofMillis) value)).Ends
            ((d.clock moves).advance (d.remaining (d.clock moves))) .timedOut 1) ∧
    (∀ work : Option Nat, (d.race (d.clock moves) (work.map .ofMillis)).2.nanos ≤
      max (d.clock moves).nanos (d.start.nanos + d.timeout.nanos)) ∧
    ((∀ m ∈ moves, m.isRace = true) →
      (d.clock moves).nanos ≤ d.start.nanos + d.timeout.nanos) := by
  obtain ⟨whole, later, races⟩ := foldl_move_spec hd moves hd.start
  refine ⟨⟨balanced _ _, fun more spent => ?_⟩, fun value w inTime => ?_, fun value work busy => ?_,
    fun work => ?_, fun all => ?_⟩
  · -- the clock does not go back
    have onward := (foldl_move_spec hd more whole).2.1
    have together : d.clock (moves ++ more) = more.foldl d.move (d.clock moves) := List.foldl_append
    rw [together]
    rw [isExpired, decide_eq_true_iff] at spent ⊢
    exact Nat.le_trans spent (Nat.sub_le_sub_right onward _)
  · exact ⟨race_of_le whole (Span.isWhole_ofMillis w) (hd.remaining whole) inTime,
      Contest.ends_of_le inTime⟩
  · have longer : ∀ s ∈ work.map Span.ofMillis, s.IsWhole ∧
        (d.remaining (d.clock moves)).nanos < s.nanos := by
      intro s inside
      obtain ⟨ms, given, rfl⟩ := Option.map_eq_some_iff.1 inside
      exact ⟨Span.isWhole_ofMillis ms, busy ms given⟩
    exact ⟨race_of_busy hd whole longer,
      Contest.ends_of_busy fun now early => takes_eq_none (fun s inside => (longer s inside).2) early⟩
  · exact (move_spec hd whole (.race work)).2.2 rfl later
  · have last := races all (Nat.le_refl _)
    show (moves.foldl d.move d.start).nanos ≤ _
    omega

/-- Of 100 ms, 30 have gone to one race and 20 have gone by. An operation of 50 ms is just in time, and one of
51 ms is given up when the 100 ms are over. -/
theorem one_budget_shared :
    (after ⟨0⟩ (.ofMillis 100)).IsWhole ∧
    (Span.ofMillis 50).nanos ≤
      ((after ⟨0⟩ (.ofMillis 100)).remaining
        ((after ⟨0⟩ (.ofMillis 100)).clock [.race (some 30), .wait 20])).nanos ∧
    (after ⟨0⟩ (.ofMillis 100)).race ((after ⟨0⟩ (.ofMillis 100)).clock [.race (some 30), .wait 20])
      (some (.ofMillis 50)) = (.completed, ⟨100000000⟩) ∧
    (after ⟨0⟩ (.ofMillis 100)).race ((after ⟨0⟩ (.ofMillis 100)).clock [.race (some 30), .wait 20])
      (some (.ofMillis 51)) = (.expired, ⟨100000000⟩) := by
  have whole : (after ⟨0⟩ (.ofMillis 100)).IsWhole := ⟨Nat.dvd_zero _, Span.isWhole_ofMillis 100⟩
  have shown : (after ⟨0⟩ (.ofMillis 100)).clock [.race (some 30), .wait 20] = ⟨50000000⟩ := by decide
  have left : ((after ⟨0⟩ (.ofMillis 100)).remaining ⟨50000000⟩).nanos = 50000000 := by decide
  obtain ⟨-, inTime, late, -⟩ := one_budget whole [.race (some 30), .wait 20]
  rw [shown, left] at inTime late
  rw [shown, left]
  have tie : (Span.ofMillis 50).nanos ≤ 50000000 := by decide
  refine ⟨whole, tie, (inTime () 50 tie).1, ?_⟩
  refine (late () (some 51) ?_).1.trans rfl
  rintro w ⟨⟩
  decide

end Deadline

end SnippetRunner
