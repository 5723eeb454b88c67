import SnippetRunner.Proofs.Snippet.Longest
import SnippetRunner.Wire.Event
import SnippetRunner.Worker.Session

/-!
# Sound reports

A report says one thing in several fields: whether the execution succeeded, why it did not, whether
its time was up, and what it wrote. Here it is said which of these go together, and that each way in
which an execution can end makes a report in which they do. A fault is sound however wild the report
of the worker is that it comes from: what is no message, no kind or no position is left out.
-/

namespace SnippetRunner

/-! ## Faults -/

namespace Fault

/-- There is a message, no empty kind, and no line or column that is not a positive number of 32 bits. -/
structure IsSound (f : Fault) : Prop where
  message : f.message ≠ ""
  kind : f.kind ≠ some ""
  line : ∀ n ∈ f.line, 1 ≤ n ∧ n < Nat.pow 2 32
  column : ∀ n ∈ f.column, 1 ≤ n ∧ n < Nat.pow 2 32

/-- A line or column is kept as it is, or not at all. -/
theorem position?_eq_some_iff {i : Int} {n : Nat} :
    position? i = some n ↔ i = n ∧ 1 ≤ n ∧ n < Nat.pow 2 32 := by
  -- as numerals, the bounds of both types are in reach of `omega`
  have limit : Int.pow 2 32 = 4294967296 := by decide
  have size : Nat.pow 2 32 = 4294967296 := by decide
  unfold position?
  rw [limit, size]
  split
  next fits =>
    constructor
    · intro same
      have value := Option.some.inj same
      omega
    · rintro ⟨rfl, -, -⟩
      exact congrArg some (Int.toNat_natCast n)
  next unfit =>
    constructor
    · intro same
      cases same
    · rintro ⟨rfl, positive, small⟩
      omega

theorem bind_position?_eq_some_iff {i : Option Int} {n : Nat} :
    i.bind position? = some n ↔ i = some (n : Int) ∧ 1 ≤ n ∧ n < Nat.pow 2 32 := by
  rw [Option.bind_eq_some_iff]
  constructor
  · rintro ⟨j, rfl, kept⟩
    obtain ⟨rfl, range⟩ := position?_eq_some_iff.1 kept
    exact ⟨rfl, range⟩
  · rintro ⟨rfl, range⟩
    exact ⟨n, rfl, position?_eq_some_iff.2 ⟨rfl, range⟩⟩

variable {f : Fault}

theorem isSound_new (message : String) : (new message).IsSound := by
  refine ⟨?_, by simp [new], by simp [new], by simp [new]⟩
  unfold new
  simp only
  split
  · decide
  next present => exact present

theorem IsSound.withKind (sound : f.IsSound) (kind : String) : (f.withKind kind).IsSound := by
  refine ⟨sound.message, ?_, sound.line, sound.column⟩
  unfold Fault.withKind
  simp only
  split
  · exact nofun
  next present => exact fun same => present (Option.some.inj same)

theorem IsSound.located (sound : f.IsSound) (line column : Option Int) :
    (f.located line column).IsSound :=
  ⟨sound.message, sound.kind, fun _ kept => (bind_position?_eq_some_iff.1 kept).2,
    fun _ kept => (bind_position?_eq_some_iff.1 kept).2⟩

theorem isSound_timeout (limit : Span) : (timeout limit).IsSound := (isSound_new _).withKind _

theorem isSound_terminated : terminated.IsSound := (isSound_new _).withKind _

theorem isSound_workerExited (detail : String) : (workerExited detail).IsSound :=
  (isSound_new _).withKind _

end Fault

namespace Wire.RawFault

variable {raw : RawFault} {n : Nat}

/-- Whatever a worker reports, the fault that it means is sound. -/
theorem isSound_fault (raw : RawFault) : raw.fault.IsSound := by
  have located := (Fault.isSound_new raw.message).located raw.line raw.column
  unfold fault
  cases raw.kind with
  | none => exact located
  | some kind => exact located.withKind kind

/-- The line of the fault is the number that the worker reports, where that is a line. -/
theorem line_fault_eq_some_iff :
    raw.fault.line = some n ↔ raw.line = some (n : Int) ∧ 1 ≤ n ∧ n < Nat.pow 2 32 := by
  rw [← Fault.bind_position?_eq_some_iff]
  unfold fault
  cases raw.kind <;> rfl

/-- So is the column. -/
theorem column_fault_eq_some_iff :
    raw.fault.column = some n ↔ raw.column = some (n : Int) ∧ 1 ≤ n ∧ n < Nat.pow 2 32 := by
  rw [← Fault.bind_position?_eq_some_iff]
  unfold fault
  cases raw.kind <;> rfl

end Wire.RawFault

/-! ## Kept output -/

namespace Transcript

variable {t : Transcript} {b : Budget}

/-- The transcript is kept under this budget, and each stream holds part of what was written to it. -/
structure Within (b : Budget) (t : Transcript) : Prop where
  maxLines : t.maxLines = b.maxLines
  maxBytes : t.maxBytes = b.maxBytes
  keeps : ∀ c, ∃ all, Keeps b.maxLines b.maxBytes all (t.held c)

theorem within_ofBudget (b : Budget) : (ofBudget b).Within b := by
  refine ⟨rfl, rfl, fun c => ⟨"", ?_⟩⟩
  have nothing : (ofBudget b).held c = .empty := by cases c <;> rfl
  rw [nothing]
  exact .empty

theorem Within.write (within : t.Within b) (d : Channel) (text : String) :
    (t.write d text).Within b := by
  refine ⟨by rw [maxLines_write, within.maxLines], by rw [maxBytes_write, within.maxBytes], fun c => ?_⟩
  obtain ⟨all, keeps⟩ := within.keeps c
  rw [held_write]
  split
  · rw [within.maxLines, within.maxBytes]
    exact ⟨all ++ text, keeps.write text⟩
  · exact ⟨all, keeps⟩

/-- What a stream holds keeps to the limits of the budget. -/
theorem Within.fits (within : t.Within b) (c : Channel) : Fits b.maxLines b.maxBytes (t.held c).text := by
  obtain ⟨all, keeps⟩ := within.keeps c
  exact keeps.isLongest.1.fits

end Transcript

namespace Worker.Execution

variable {e e' : Execution} {b : Budget} {m : Message} {done : Option (Option Fault)}

/-- A message writes to the transcript of an execution, or leaves it as it is. -/
theorem within_receive (within : e.transcript.Within b) (taken : e.receive m = (e', done)) :
    e'.transcript.Within b := by
  have written : ∀ c text, (e.write c text).transcript.Within b := fun c text => within.write c text
  unfold receive at taken
  split at taken
  · split at taken <;> cases taken <;> exact within
  · split at taken <;> cases taken
    · exact written _ _
    · exact within
  · cases taken
    exact within
  · cases taken
    exact written _ _

theorem within_drain (within : e.transcript.Within b) (ms : List Message) :
    (e.drain ms).transcript.Within b := by
  unfold drain
  induction ms generalizing e with
  | nil => exact within
  | cons m ms ih =>
    rw [List.foldl_cons]
    apply ih
    split
    · exact within.write .stderr _
    · exact within

/-- What is left over is taken by the execution of the same request. -/
@[simp] theorem id_drain (e : Execution) (ms : List Message) : (e.drain ms).id = e.id := by
  unfold drain
  induction ms generalizing e with
  | nil => rfl
  | cons m ms ih => cases m <;> exact ih _

/-- Only the event that its request is done ends an execution, which is left as it was, and the fault
is the one that the event carries. -/
theorem exists_done_of_receive (taken : e.receive m = (e', some fault)) :
    ∃ raw, m = .event (.done e.id raw) ∧ e' = e ∧ fault = raw.map Wire.RawFault.fault := by
  unfold receive at taken
  split at taken
  next id raw =>
    split at taken
    next same =>
      cases taken
      exact ⟨raw, by rw [same], rfl, rfl⟩
    next => cases taken
  · split at taken <;> cases taken
  · cases taken
  · cases taken

end Worker.Execution

/-! ## Reports -/

namespace Report

variable {b : Budget} {output : Output} {fault : Option Fault}

/-- The fields of a report go together, and what it says was written keeps to the budget. -/
structure IsSound (b : Budget) (r : Report) : Prop where
  /-- There is a fault exactly where the execution did not succeed. -/
  faulty : r.fault.isSome = !r.success
  /-- One whose time was up did not succeed, and its fault says so. -/
  late : r.timedOut = true → r.success = false ∧ ∃ f, r.fault = some f ∧ f.kind = some Fault.timeoutKind
  fault : ∀ f ∈ r.fault, f.IsSound
  stdout : Fits b.maxLines b.maxBytes r.stdout
  stderr : Fits b.maxLines b.maxBytes r.stderr

/-- The report on an execution that came to its end, with a sound fault or without. -/
theorem isSound_completed (stdout : Fits b.maxLines b.maxBytes output.stdout)
    (stderr : Fits b.maxLines b.maxBytes output.stderr) (sound : ∀ f ∈ fault, f.IsSound) :
    (completed output fault).IsSound b where
  faulty := by cases fault <;> rfl
  late := nofun
  fault := sound
  stdout := stdout
  stderr := stderr

theorem isSound_outOfTime (stdout : Fits b.maxLines b.maxBytes output.stdout)
    (stderr : Fits b.maxLines b.maxBytes output.stderr) (limit : Span) :
    (outOfTime output limit).IsSound b where
  faulty := rfl
  late := fun _ => ⟨rfl, _, rfl, rfl⟩
  fault := by
    rintro f ⟨⟩
    exact Fault.isSound_timeout limit
  stdout := stdout
  stderr := stderr

/-- However an execution ended whose transcript was kept under a budget, the report on it is sound. -/
theorem isSound_report {t : Transcript} {ending : Worker.Ending} (within : t.Within b)
    (sound : ∀ f, ending = .done (some f) → f.IsSound) : (ending.report b t.output).IsSound b := by
  have stdout := within.fits .stdout
  have stderr := within.fits .stderr
  cases ending with
  | done fault => exact isSound_completed stdout stderr fun f is => sound f (by rw [is])
  | lost detail =>
    refine isSound_completed stdout stderr ?_
    rintro f ⟨⟩
    exact Fault.isSound_workerExited detail
  | terminated =>
    refine isSound_completed stdout stderr ?_
    rintro f ⟨⟩
    exact Fault.isSound_terminated
  | outOfTime => exact isSound_outOfTime stdout stderr b.timeout

end Report

end SnippetRunner
