import SnippetRunner.Proofs.Text.Spelled
import SnippetRunner.Proofs.Written

/-!
# Validity of what is read back

A check looks at a timeout to the nanosecond, but its written form has whole milliseconds. A timeout of less
than one millisecond is therefore written as none at all, and what is read back is refused; a timeout too long
to be written is cut to one that is long enough. Nothing else that a check looks at is changed by writing and
reading. Settings have a JSON form exactly if all of their paths are texts.
-/

namespace SnippetRunner

/-- Some time is left of a span that is written if a millisecond fits in it. -/
theorem Span.nanos_written_pos_iff {s : Span} : 0 < s.written.nanos ↔ 1 ≤ s.millis := by
  have word : 0 < Text.maxWord := by decide
  show 0 < min s.millis Text.maxWord * 1000000 ↔ 1 ≤ s.millis
  omega

/-- A valid budget stays valid when it is written and read, if its timeout is a millisecond at least. -/
theorem Budget.validate_written_iff {b : Budget} (valid : b.validate = .ok ()) :
    b.written.validate = .ok () ↔ 1 ≤ b.timeout.millis := by
  obtain ⟨-, lines, bytes⟩ := (validate_eq_ok_iff b).1 valid
  rw [validate_eq_ok_iff, ← Span.nanos_written_pos_iff]
  exact ⟨fun h => h.1, fun time => ⟨time, lines, bytes⟩⟩

/-! ## Valid settings -/

/-- No limit is zero, and the binary is an absolute path. -/
structure RuntimeSettings.IsValid (s : RuntimeSettings) : Prop where
  memory : s.memoryLimit ≠ some 0
  processes : s.maxProcesses ≠ some 0
  binary : ∀ b ∈ s.binary, b.isAbsolute = true

theorem RuntimeSettings.validate_eq_ok_iff {s : RuntimeSettings} {language : String} :
    s.validate language = .ok () ↔ s.IsValid := by
  unfold validate
  split
  next none_ => exact ⟨nofun, fun h => absurd none_ h.memory⟩
  next memory =>
    split
    next none_ => exact ⟨nofun, fun h => absurd none_ h.processes⟩
    next processes =>
      split
      next unset => exact ⟨fun _ => ⟨memory, processes, by simp [unset]⟩, fun _ => rfl⟩
      next b is =>
        split
        next absolute => exact ⟨fun _ => ⟨memory, processes, by simp [is, absolute]⟩, fun _ => rfl⟩
        next relative => exact ⟨nofun, fun h => absurd (h.binary b is) relative⟩

/-- All parts of the settings are valid, and a worker has some time to start. -/
structure Settings.IsValid (s : Settings) : Prop where
  budget : s.budget.validate = .ok ()
  start : s.startMillis ≠ 0
  python : s.python.IsValid
  javascript : s.javascript.IsValid

theorem Settings.validate_eq_ok_iff {s : Settings} : s.validate = .ok () ↔ s.IsValid := by
  unfold validate
  cases budget : s.budget.validate with
  | error e => exact ⟨nofun, fun h => nomatch budget.symm.trans h.budget⟩
  | ok _ =>
    by_cases start : s.startMillis = 0
    · simp only [start, if_true]
      exact ⟨nofun, fun h => absurd start h.start⟩
    · simp only [start, if_false]
      cases python : s.python.validate "python" with
      | error e =>
        refine ⟨nofun, fun h => ?_⟩
        rw [RuntimeSettings.validate_eq_ok_iff.2 h.python] at python
        cases python
      | ok _ =>
        show s.javascript.validate "javascript" = .ok () ↔ _
        rw [RuntimeSettings.validate_eq_ok_iff]
        exact ⟨fun h => ⟨budget, start, RuntimeSettings.validate_eq_ok_iff.1 python, h⟩,
          fun h => h.javascript⟩

/-- Only the timeout can make valid settings invalid when they are written and read. -/
theorem Settings.validate_written_iff {s : Settings} (valid : s.validate = .ok ()) :
    s.written.validate = .ok () ↔ 1 ≤ s.budget.timeout.millis := by
  have parts := validate_eq_ok_iff.1 valid
  rw [validate_eq_ok_iff, ← Budget.validate_written_iff parts.budget]
  exact ⟨fun h => h.budget, fun time => ⟨time, parts.start, parts.python, parts.javascript⟩⟩

/-! ## Settings that can be written -/

/-- A path has a JSON form if it is a text. -/
theorem Path.exists_toJson?_iff {p : Path} : (∃ v, p.toJson? = some v) ↔ p.IsText := by
  constructor
  · rintro ⟨v, form⟩
    obtain ⟨text, read, -⟩ := Option.map_eq_some_iff.1 form
    exact ⟨text, congrArg Path.mk (Text.decode?_eq_some_iff_utf8.1 read).symm⟩
  · rintro ⟨text, rfl⟩
    exact ⟨_, toJson?_ofText text⟩

theorem Path.isText_of_mapM_toJson? {ps : List Path} {vs : List Json.Value}
    (form : ps.mapM Path.toJson? = some vs) : ∀ p ∈ ps, p.IsText := by
  induction ps generalizing vs with
  | nil => exact List.forall_mem_nil _
  | cons p ps ih =>
    rw [List.mapM_cons] at form
    obtain ⟨v, first, later⟩ := Option.bind_eq_some_iff.1 form
    obtain ⟨vs, rest, -⟩ := Option.bind_eq_some_iff.1 later
    exact List.forall_mem_cons.2 ⟨Path.exists_toJson?_iff.1 ⟨v, first⟩, ih rest⟩

/-- The limits fit in their fields. -/
structure RuntimeSettings.InRange (s : RuntimeSettings) : Prop where
  memory : ∀ n ∈ s.memoryLimit, n < 2 ^ 64
  processes : ∀ n ∈ s.maxProcesses, n < 2 ^ 64

theorem RuntimeSettings.exists_toJson?_iff {s : RuntimeSettings} (range : s.InRange) :
    (∃ v, s.toJson? = some v) ↔ s.HasRoom := by
  constructor
  · rintro ⟨v, form⟩
    unfold toJson? at form
    cases is : s.binary with
    | none =>
      rw [is] at form
      obtain ⟨_, -, later⟩ := Option.bind_eq_some_iff.1 form
      obtain ⟨readable, more, -⟩ := Option.bind_eq_some_iff.1 later
      exact ⟨range.memory, range.processes, by simp [is], Path.isText_of_mapM_toJson? more⟩
    | some b =>
      rw [is] at form
      obtain ⟨binary, first, later⟩ := Option.bind_eq_some_iff.1 form
      obtain ⟨_, -, later⟩ := Option.bind_eq_some_iff.1 later
      obtain ⟨readable, more, -⟩ := Option.bind_eq_some_iff.1 later
      have text : b.IsText := Path.exists_toJson?_iff.1 ⟨binary, first⟩
      exact ⟨range.memory, range.processes, by simpa [is] using text, Path.isText_of_mapM_toJson? more⟩
  · intro room
    obtain ⟨v, form, -⟩ := exists_toJson? room
    exact ⟨v, form⟩

/-- All numbers fit in their fields. -/
structure Settings.InRange (s : Settings) : Prop where
  budget : s.budget.HasRoom
  start : s.startMillis < 2 ^ 64
  python : s.python.InRange
  javascript : s.javascript.InRange

theorem Settings.exists_toJson?_iff {s : Settings} (range : s.InRange) :
    (∃ v, s.toJson? = some v) ↔ s.HasRoom := by
  constructor
  · rintro ⟨v, form⟩
    obtain ⟨python, first, later⟩ := Option.bind_eq_some_iff.1 form
    obtain ⟨javascript, second, -⟩ := Option.bind_eq_some_iff.1 later
    exact ⟨range.budget, range.start,
      (RuntimeSettings.exists_toJson?_iff range.python).1 ⟨python, first⟩,
      (RuntimeSettings.exists_toJson?_iff range.javascript).1 ⟨javascript, second⟩⟩
  · intro room
    obtain ⟨v, form, -⟩ := exists_toJson? room
    exact ⟨v, form⟩

/-! ## Reading back -/

theorem Budget.read_write {b : Budget} (room : b.HasRoom) :
    (Json.parse? b.toJson.write).bind Budget.ofJson? = some b.written := by
  rw [Json.parse?_write b.plain_toJson]
  exact Budget.ofJson?_toJson room

/-- The JSON form of some settings is read as what survives of them. -/
theorem Settings.read_write {s : Settings} (range : s.InRange) {v : Json.Value}
    (form : s.toJson? = some v) :
    (Json.parse? v.write).bind Settings.ofJson? = some s.written := by
  obtain ⟨w, form', plain, read⟩ := exists_toJson? ((exists_toJson?_iff range).1 ⟨v, form⟩)
  obtain rfl : w = v := Option.some.inj (form'.symm.trans form)
  rw [Json.parse?_write plain]
  exact read

/-- What is valid is read back from its written form, and is valid again exactly if its timeout is a
millisecond at least. Settings have a written form exactly if all of their paths are texts. -/
theorem valid_again_iff :
    (∀ b : Budget, b.HasRoom → b.validate = .ok () →
      ∃ b', (Json.parse? b.toJson.write).bind Budget.ofJson? = some b' ∧
        (b'.validate = .ok () ↔ 1 ≤ b.timeout.millis)) ∧
    ∀ s : Settings, s.InRange → s.validate = .ok () →
      ((∃ v, s.toJson? = some v) ↔ s.HasRoom) ∧
      ∀ v, s.toJson? = some v →
        ∃ s', (Json.parse? v.write).bind Settings.ofJson? = some s' ∧
          (s'.validate = .ok () ↔ 1 ≤ s.budget.timeout.millis) := by
  refine ⟨fun b room valid => ?_, fun s range valid => ⟨Settings.exists_toJson?_iff range, ?_⟩⟩
  · exact ⟨b.written, Budget.read_write room, Budget.validate_written_iff valid⟩
  · intro v form
    exact ⟨s.written, Settings.read_write range form, Settings.validate_written_iff valid⟩

/-- A millisecond is enough, and a timeout too long to be written is still one. -/
theorem valid_again_at_bounds :
    let shortest : Budget := ⟨⟨1000000⟩, 1, 1⟩
    let longest : Settings :=
      ⟨⟨⟨2 ^ 64 * 1000000000⟩, 2 ^ 64 - 1, 1⟩, 1, ⟨some (.ofText "/é"), some 1, none, true, []⟩, .standard⟩
    (shortest.HasRoom ∧ shortest.validate = .ok () ∧
      ∃ b', (Json.parse? shortest.toJson.write).bind Budget.ofJson? = some b' ∧ b'.validate = .ok ()) ∧
    longest.InRange ∧ longest.validate = .ok () ∧
      ∃ v s', longest.toJson? = some v ∧
        (Json.parse? v.write).bind Settings.ofJson? = some s' ∧ s'.validate = .ok () := by
  intro shortest longest
  have room : shortest.HasRoom := ⟨by decide, by decide⟩
  have valid : shortest.validate = .ok () := rfl
  have range : longest.InRange :=
    ⟨⟨by decide, by decide⟩, by decide, ⟨by simp [longest], nofun⟩, nofun, nofun⟩
  have sound : longest.validate = .ok () := rfl
  have texts : longest.HasRoom := by
    refine ⟨range.budget, range.start, ⟨range.python.memory, nofun, ?_, nofun⟩, nofun, nofun, nofun, nofun⟩
    rintro p ⟨⟩
    exact ⟨"/é", rfl⟩
  obtain ⟨budgets, settings⟩ := valid_again_iff
  obtain ⟨written, read⟩ := settings longest range sound
  obtain ⟨v, form⟩ := written.2 texts
  refine ⟨⟨room, valid, ?_⟩, range, sound, v, ?_⟩
  · obtain ⟨b', found, again⟩ := budgets shortest room valid
    exact ⟨b', found, again.2 (by decide)⟩
  · obtain ⟨s', found, again⟩ := read v form
    exact ⟨s', form, found, again.2 (by decide +kernel)⟩

/-- A shorter timeout is written as zero, and so a valid budget is read back as one that is refused; the
same goes for settings with this budget. -/
theorem refused_after_reading :
    let b : Budget := ⟨⟨999999⟩, 1000, 1048576⟩
    let s : Settings := { Settings.standard with budget := b }
    (b.validate = .ok () ∧ b.toJson.write =
        "\x7b\"timeout\":0,\"maxOutputLines\":1000,\"maxOutputBytes\":1048576\x7d" ∧
      (Json.parse? b.toJson.write).bind Budget.ofJson? = some ⟨⟨0⟩, 1000, 1048576⟩ ∧
      Budget.validate ⟨⟨0⟩, 1000, 1048576⟩ = .error (.invalidOptions "timeout must be positive")) ∧
    s.validate = .ok () ∧
      (s.toJson?.bind fun v => (Json.parse? v.write).bind Settings.ofJson?) =
        some { s with budget := ⟨⟨0⟩, 1000, 1048576⟩ } ∧
      Settings.validate { s with budget := ⟨⟨0⟩, 1000, 1048576⟩ } =
        .error (.invalidConfig "defaults: invalid options: timeout must be positive") := by
  intro b s
  have room : b.HasRoom := ⟨by decide, by decide⟩
  have range : s.InRange := ⟨room, by decide, ⟨nofun, nofun⟩, nofun, nofun⟩
  have texts : s.HasRoom :=
    ⟨room, range.start, ⟨nofun, nofun, nofun, nofun⟩, nofun, nofun, nofun, nofun⟩
  have zero : b.written = ⟨⟨0⟩, 1000, 1048576⟩ := by decide +kernel
  obtain ⟨v, form⟩ := (Settings.exists_toJson?_iff range).2 texts
  refine ⟨⟨rfl, by decide +kernel, zero ▸ Budget.read_write room, rfl⟩, rfl, ?_, rfl⟩
  rw [form, Option.bind_some, Settings.read_write range form, Settings.written, zero]

end SnippetRunner
