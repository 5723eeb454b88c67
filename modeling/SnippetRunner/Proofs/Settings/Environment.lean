import SnippetRunner.Proofs.Settings.Validity
import SnippetRunner.Proofs.Text.Decimal
import SnippetRunner.Settings.Environment

/-!
# Settings that the environment gives

The environment names a file, or none, and overrides three of the settings in it. What comes of this is
either settings that are valid, those of the file but for what is overridden, or a failure that says that
the settings are invalid. A file has to be valid by itself, whatever is overridden. The timeout has to be
a number, but for one loophole: a value that is no text at all goes unnoticed, as if the variable were not
set.
-/

namespace SnippetRunner

namespace Interpreter.Host

/-- The host without an environment variable. -/
def without (h : Host) (name : String) : Host :=
  { h with environment := h.environment.filter fun e => e.1 != name }

variable {h : Host} {name other : String}

theorem lookup?_without_self (h : Host) (name : String) : (h.without name).lookup? name = none := by
  unfold lookup? without
  simp [List.find?_eq_none]

/-- All other variables stay. -/
theorem lookup?_without_of_ne (different : other ≠ name) :
    (h.without name).lookup? other = h.lookup? other := by
  unfold lookup? without
  simp only
  rw [List.find?_filter]
  congr 2
  funext e
  by_cases same : e.1 = other
  · simp [same, different]
  · simp [same]

end Interpreter.Host

namespace Settings

open Interpreter (Host)
open Interpreter.Python (binaryVariable)

variable {h : Host} {base s : Settings} {value : List UInt8} {f : Failure}

/-! ## Failures -/

/-- Whatever fails here says that the settings are invalid. -/
def FailsAsInvalid {α : Type} (x : Except Failure α) : Prop :=
  ∀ f, x = .error f → ∃ reason, f = .invalidConfig reason

theorem FailsAsInvalid.bind {α β : Type} {x : Except Failure α} {g : α → Except Failure β}
    (first : FailsAsInvalid x) (later : ∀ a, FailsAsInvalid (g a)) : FailsAsInvalid (x >>= g) := by
  intro f fails
  cases x with
  | error e =>
    cases fails
    exact first f rfl
  | ok a => exact later a f fails

theorem failsAsInvalid_validate (s : Settings) : FailsAsInvalid s.validate := by
  have runtime : ∀ (r : RuntimeSettings) (language : String), FailsAsInvalid (r.validate language) := by
    intro r language f fails
    unfold RuntimeSettings.validate at fails
    grind
  unfold validate
  cases s.budget.validate with
  | error e => exact fun f fails => ⟨_, (Except.error.inj fails).symm⟩
  | ok _ =>
    by_cases start : s.startMillis = 0
    · simp only [start, if_true]
      exact fun f fails => ⟨_, (Except.error.inj fails).symm⟩
    · simp only [start, if_false]
      exact (runtime s.python "python").bind fun _ => runtime s.javascript "javascript"

theorem failsAsInvalid_ofToml (text : String) (w : Wording) : FailsAsInvalid (ofToml text w) := by
  unfold ofToml
  split
  · exact fun f fails => ⟨_, (Except.error.inj fails).symm⟩
  · exact (failsAsInvalid_validate _).bind fun _ => nofun

theorem failsAsInvalid_ofFile (t : Files.Tree) (p : Path) (w : Wording) :
    FailsAsInvalid (ofFile t p w) := by
  unfold ofFile
  split
  · exact fun f fails => ⟨_, (Except.error.inj fails).symm⟩
  · exact failsAsInvalid_ofToml _ w

theorem failsAsInvalid_withTimeout (s : Settings) (value : Option (List UInt8)) :
    FailsAsInvalid (s.withTimeout value) := by
  unfold withTimeout
  split
  · exact nofun
  · split
    · exact nofun
    · exact fun f fails => ⟨_, (Except.error.inj fails).symm⟩

/-! ## What is overridden -/

/-- The settings of the file that the environment names, which are valid, or the standard ones. -/
inductive Configured (h : Host) : Settings → Prop where
  | standard (unset : h.lookup? fileVariable = none) : Configured h .standard
  | file {value : List UInt8} {text : String} {s : Settings}
      (named : h.lookup? fileVariable = some value) (content : h.tree.readText ⟨value⟩ = .ok text)
      (document : (Toml.read? text).bind ofEntries? = some s) (valid : s.validate = .ok ()) :
      Configured h s

theorem ofToml_eq_ok_iff {text : String} {w : Wording} : ofToml text w = .ok s ↔
    (Toml.read? text).bind ofEntries? = some s ∧ s.validate = .ok () := by
  unfold ofToml
  cases document : (Toml.read? text).bind ofEntries? with
  | none => exact ⟨nofun, nofun⟩
  | some s' =>
    cases valid : s'.validate with
    | error e =>
      simp only [valid, bind, Except.bind]
      refine ⟨nofun, ?_⟩
      rintro ⟨⟨⟩, valid'⟩
      rw [valid] at valid'
      cases valid'
    | ok _ =>
      simp only [valid, bind, Except.bind, pure, Except.pure, Except.ok.injEq, Option.some.injEq]
      exact ⟨fun same => ⟨same, same ▸ valid⟩, fun h => h.1⟩

theorem ofFile_eq_ok_iff {t : Files.Tree} {p : Path} {w : Wording} : ofFile t p w = .ok s ↔
    ∃ text, t.readText p = .ok text ∧ (Toml.read? text).bind ofEntries? = some s ∧
      s.validate = .ok () := by
  unfold ofFile
  cases t.readText p with
  | error e => simp
  | ok text => simp [ofToml_eq_ok_iff]

/-- What the timeout is when a variable with this value, or none, has been looked at. -/
inductive TimeoutAfter (old : Span) : Option (List UInt8) → Span → Prop where
  | unset : TimeoutAfter old none old
  /-- A value that is no text counts as none. -/
  | unread {value : List UInt8} (noText : ∀ text, value ≠ Text.utf8 text) :
      TimeoutAfter old (some value) old
  /-- The number may have blanks around it. -/
  | set {text : String} {ms : Nat} (number : Text.WritesWord (Text.trim text) ms) :
      TimeoutAfter old (some (Text.utf8 text)) (.ofMillis ms)

theorem decode?_eq_none_iff : Text.decode? value = none ↔ ∀ text, value ≠ Text.utf8 text := by
  rw [Option.eq_none_iff_forall_ne_some]
  exact forall_congr' fun text => not_congr Text.decode?_eq_some_iff_utf8

/-- A text has to be a number. -/
theorem withTimeout_text (s : Settings) (text : String) :
    s.withTimeout (some (Text.utf8 text)) =
      match Text.word? (Text.trim text) with
      | .ok ms => .ok { s with budget := { s.budget with timeout := .ofMillis ms } }
      | .error e =>
        .error (.invalidConfig (timeoutVariable ++ "=" ++ Text.quoted text ++ ": " ++ e.message)) := by
  cases read : Text.word? (Text.trim text) <;>
    simp only [withTimeout, Option.bind_some, Text.decode?_utf8, read]

/-- What is no text goes unnoticed. -/
theorem withTimeout_of_noText (s : Settings) (noText : ∀ text, value ≠ Text.utf8 text) :
    s.withTimeout (some value) = s.withTimeout none := by
  unfold withTimeout
  rw [Option.bind_some, decode?_eq_none_iff.2 noText]
  rfl

theorem withTimeout_eq_ok_iff {s s' : Settings} {given : Option (List UInt8)} :
    s.withTimeout given = .ok s' ↔ ∃ timeout, TimeoutAfter s.budget.timeout given timeout ∧
      s' = { s with budget := { s.budget with timeout } } := by
  cases given with
  | none =>
    constructor
    · rintro ⟨⟩
      exact ⟨_, .unset, rfl⟩
    · rintro ⟨_, ⟨⟩, rfl⟩
      rfl
  | some value =>
    by_cases isText : ∃ text, value = Text.utf8 text
    · obtain ⟨text, rfl⟩ := isText
      rw [withTimeout_text]
      constructor
      · intro given
        split at given
        next ms number =>
          cases given
          exact ⟨_, .set (Text.word?_eq_ok_iff.1 number), rfl⟩
        next => cases given
      · rintro ⟨timeout, after, rfl⟩
        -- of the two ways for a value, the one for what is no text is out
        generalize value : Text.utf8 text = bytes at after
        cases after with
        | unread noText => exact absurd value.symm (noText text)
        | set number =>
          rename_i other ms
          have same : text = other := by
            have read := congrArg Text.decode? value
            rw [Text.decode?_utf8, Text.decode?_utf8] at read
            exact Option.some.inj read
          rw [same, Text.word?_eq_ok_iff.2 number]
    · have noText : ∀ text, value ≠ Text.utf8 text := fun text is => isText ⟨text, is⟩
      rw [withTimeout_of_noText s noText]
      constructor
      · rintro ⟨⟩
        exact ⟨_, .unread noText, rfl⟩
      · rintro ⟨timeout, after, rfl⟩
        cases after with
        | unread => rfl
        | set => exact absurd rfl (noText _)

/-- The interpreters of the environment in place of those of the settings. -/
def withBinaries (h : Host) (s : Settings) : Settings :=
  { s with
    python := { s.python with
      binary := (h.lookup? binaryVariable).elim s.python.binary fun value => some ⟨value⟩ }
    javascript := { s.javascript with
      binary := (h.lookup? Interpreter.Node.binaryVariable).elim s.javascript.binary
        fun value => some ⟨value⟩ } }

/-- The settings before anything is overridden. -/
def configured (h : Host) : Except Failure Settings :=
  match h.lookup? fileVariable with
  | some value => ofFile h.tree ⟨value⟩ h.wording
  | none => .ok standard

/-- The environment is looked at in four steps: the file, the interpreters, the timeout, and whether it all
is valid. -/
theorem ofEnvironment_eq (h : Host) : ofEnvironment h =
    configured h >>= fun s => (withBinaries h s).withTimeout (h.lookup? timeoutVariable) >>= fun s =>
      s.validate >>= fun _ => .ok s := by
  unfold ofEnvironment configured withBinaries
  cases h.lookup? fileVariable <;> cases h.lookup? binaryVariable <;>
    cases h.lookup? Interpreter.Node.binaryVariable <;> rfl

theorem configured_eq_ok_iff : configured h = .ok s ↔ Configured h s := by
  unfold configured
  cases named : h.lookup? fileVariable with
  | none =>
    constructor
    · rintro ⟨⟩
      exact .standard named
    · rintro (_ | ⟨named', -, -, -⟩)
      · rfl
      · rw [named] at named'
        cases named'
  | some value =>
    simp only [ofFile_eq_ok_iff]
    constructor
    · rintro ⟨text, content, document, valid⟩
      exact .file named content document valid
    · rintro (unset | ⟨named', content, document, valid⟩)
      · rw [named] at unset
        cases unset
      · rw [named] at named'
        cases named'
        exact ⟨_, content, document, valid⟩

/-- What the environment overrides is as it says, and everything else as it was. -/
structure Overrides (h : Host) (base s : Settings) : Prop where
  python : s.python.binary =
    (h.lookup? binaryVariable).elim base.python.binary fun value => some ⟨value⟩
  javascript : s.javascript.binary =
    (h.lookup? Interpreter.Node.binaryVariable).elim base.javascript.binary fun value => some ⟨value⟩
  timeout : TimeoutAfter base.budget.timeout (h.lookup? timeoutVariable) s.budget.timeout
  rest : s = { base with
    budget := { base.budget with timeout := s.budget.timeout }
    python := { base.python with binary := s.python.binary }
    javascript := { base.javascript with binary := s.javascript.binary } }

theorem overrides_iff : Overrides h base s ↔
    (withBinaries h base).withTimeout (h.lookup? timeoutVariable) = .ok s := by
  rw [withTimeout_eq_ok_iff]
  constructor
  · intro o
    refine ⟨s.budget.timeout, o.timeout, ?_⟩
    rw [o.rest, o.python, o.javascript]
    rfl
  · rintro ⟨timeout, after, rfl⟩
    exact ⟨rfl, rfl, after, rfl⟩

theorem ofEnvironment_eq_ok_iff : ofEnvironment h = .ok s ↔
    ∃ base, Configured h base ∧ Overrides h base s ∧ s.validate = .ok () := by
  rw [ofEnvironment_eq]
  simp only [← configured_eq_ok_iff, overrides_iff]
  cases configured h with
  | error e => exact ⟨nofun, nofun⟩
  | ok base =>
    cases given : (withBinaries h base).withTimeout (h.lookup? timeoutVariable) with
    | error e =>
      refine ⟨fun fails => ?_, ?_⟩
      · simp only [bind, Except.bind, given] at fails
        cases fails
      · rintro ⟨_, ⟨⟩, fails, -⟩
        rw [given] at fails
        cases fails
    | ok s' =>
      cases valid : s'.validate with
      | error e =>
        refine ⟨fun fails => ?_, ?_⟩
        · simp only [bind, Except.bind, given, valid] at fails
          cases fails
        · rintro ⟨_, ⟨⟩, same, valid'⟩
          cases given.symm.trans same
          rw [valid] at valid'
          cases valid'
      | ok _ =>
        refine ⟨fun gives => ?_, ?_⟩
        · simp only [bind, Except.bind, given, valid] at gives
          cases gives
          exact ⟨base, rfl, given, valid⟩
        · rintro ⟨_, ⟨⟩, same, -⟩
          cases given.symm.trans same
          simp only [bind, Except.bind, given, valid]

theorem failsAsInvalid_ofEnvironment (h : Host) : FailsAsInvalid (ofEnvironment h) := by
  rw [ofEnvironment_eq]
  have file : FailsAsInvalid (configured h) := by
    unfold configured
    split
    · exact failsAsInvalid_ofFile _ _ _
    · exact nofun
  exact file.bind fun _ => (failsAsInvalid_withTimeout _ _).bind fun s =>
    (failsAsInvalid_validate s).bind fun _ => nofun

/-! ## A timeout that is no number -/

/-- A text that is no number is refused, whatever else the environment says. -/
theorem refuses_text {text : String} (given : h.lookup? timeoutVariable = some (Text.utf8 text))
    (noNumber : ∀ ms, ¬Text.WritesWord (Text.trim text) ms) :
    ∃ reason, ofEnvironment h = .error (.invalidConfig reason) := by
  cases result : ofEnvironment h with
  | error f =>
    obtain ⟨reason, rfl⟩ := failsAsInvalid_ofEnvironment h f result
    exact ⟨reason, rfl⟩
  | ok s =>
    obtain ⟨base, -, overrides, -⟩ := ofEnvironment_eq_ok_iff.1 result
    have given' := overrides_iff.1 overrides
    rw [given, withTimeout_text] at given'
    split at given'
    next ms number => exact absurd (Text.word?_eq_ok_iff.1 number) (noNumber ms)
    next => cases given'

/-- A value that is no text makes no difference. -/
theorem ofEnvironment_without (given : h.lookup? timeoutVariable = some value)
    (noText : ∀ text, value ≠ Text.utf8 text) :
    ofEnvironment h = ofEnvironment (h.without timeoutVariable) := by
  have others : ∀ name, name ≠ timeoutVariable →
      (h.without timeoutVariable).lookup? name = h.lookup? name := fun name different =>
    Host.lookup?_without_of_ne different
  have file : configured (h.without timeoutVariable) = configured h := by
    unfold configured
    rw [others fileVariable (by decide)]
    rfl
  have binaries : withBinaries (h.without timeoutVariable) = withBinaries h := by
    funext s
    unfold withBinaries
    rw [others binaryVariable (by decide), others Interpreter.Node.binaryVariable (by decide)]
  rw [ofEnvironment_eq, ofEnvironment_eq (h.without timeoutVariable), file, binaries, given,
    Host.lookup?_without_self]
  simp only [withTimeout_of_noText _ noText]

/-- The settings that the environment gives are valid, and they are those of its file, or the standard ones,
but for the interpreters and the timeout that it sets. Every failure says that the settings are invalid. A
timeout that is no number is refused exactly if it is a text, or if the rest of the environment is refused;
one that is no text makes no difference. -/
theorem given_by_environment (h : Host) :
    (∀ s, ofEnvironment h = .ok s ↔
      ∃ base, Configured h base ∧ Overrides h base s ∧ s.validate = .ok ()) ∧
    (∀ f, ofEnvironment h = .error f → ∃ reason, f = .invalidConfig reason) ∧
    ∀ value, h.lookup? timeoutVariable = some value →
      (∀ text ms, value = Text.utf8 text → ¬Text.WritesWord (Text.trim text) ms) →
      ((∃ reason, ofEnvironment h = .error (.invalidConfig reason)) ↔
        (∃ text, value = Text.utf8 text) ∨
          ∃ reason, ofEnvironment (h.without timeoutVariable) = .error (.invalidConfig reason)) ∧
      ((∀ text, value ≠ Text.utf8 text) → ofEnvironment h = ofEnvironment (h.without timeoutVariable)) := by
  refine ⟨fun s => ofEnvironment_eq_ok_iff, failsAsInvalid_ofEnvironment h, fun value given noNumber => ?_⟩
  refine ⟨?_, ofEnvironment_without given⟩
  by_cases isText : ∃ text, value = Text.utf8 text
  · obtain ⟨text, rfl⟩ := isText
    exact iff_of_true (refuses_text given fun ms => noNumber text ms rfl) (.inl ⟨text, rfl⟩)
  · have noText : ∀ text, value ≠ Text.utf8 text := fun text is => isText ⟨text, is⟩
    rw [ofEnvironment_without given noText, or_iff_right isText]

/-- A host without files on which only the timeout is set. -/
def timedHost (value : List UInt8) : Host where
  tree := ⟨[], []⟩
  environment := [(timeoutVariable, value)]
  run := fun _ => .error .notFound

/-- The digit five and a byte that ends no character go unnoticed, but five and a letter are refused. -/
theorem given_by_environment_unread :
    ((timedHost [0x35, 0xFF]).lookup? timeoutVariable = some [0x35, 0xFF] ∧
      (∀ text, [0x35, 0xFF] ≠ Text.utf8 text) ∧ ofEnvironment (timedHost [0x35, 0xFF]) = .ok .standard) ∧
    (timedHost (Text.utf8 "5s")).lookup? timeoutVariable = some (Text.utf8 "5s") ∧
      (∀ ms, ¬Text.WritesWord (Text.trim "5s") ms) ∧
      ∃ reason, ofEnvironment (timedHost (Text.utf8 "5s")) = .error (.invalidConfig reason) := by
  have noText : ∀ text, [0x35, 0xFF] ≠ Text.utf8 text := decode?_eq_none_iff.1 rfl
  have noNumber : ∀ ms, ¬Text.WritesWord (Text.trim "5s") ms := by
    intro ms number
    have fails : Text.word? (Text.trim "5s") = .error .invalidDigit := by decide +kernel
    cases fails.symm.trans (Text.word?_eq_ok_iff.2 number)
  have given : ∀ value, (timedHost value).lookup? timeoutVariable = some value := fun _ => rfl
  obtain ⟨-, -, unread⟩ := given_by_environment (timedHost [0x35, 0xFF])
  obtain ⟨-, -, refused⟩ := given_by_environment (timedHost (Text.utf8 "5s"))
  refine ⟨⟨given _, noText, ?_⟩, given _, noNumber, ?_⟩
  · exact (unread _ (given _) fun text _ is => absurd is (noText text)).2 noText
  · refine (refused _ (given _) fun text ms is => ?_).1.2 (.inl ⟨"5s", rfl⟩)
    have read := congrArg Text.decode? is
    rw [Text.decode?_utf8, Text.decode?_utf8] at read
    exact Option.some.inj read ▸ noNumber ms

end Settings

end SnippetRunner
