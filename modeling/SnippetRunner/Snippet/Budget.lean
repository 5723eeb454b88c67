import SnippetRunner.Failure
import SnippetRunner.Json.Decoder
import SnippetRunner.Time.Span

/-!
# The budget of an execution

How long one execution may run and how much output is kept of it. A budget is usable when none of
its three limits is zero; its JSON form has the time in whole milliseconds.
-/

namespace SnippetRunner

/-- The limits of one execution. -/
structure Budget where
  timeout : Span
  maxLines : Nat
  maxBytes : Nat
  deriving DecidableEq, Repr, Inhabited

namespace Budget

/-- Five seconds, a thousand lines and a mebibyte of each output stream. -/
def standard : Budget := ⟨.ofMillis 5000, 1000, 1024 * 1024⟩

/-- Refuses a budget with a limit of zero; of several the first one is named. -/
def validate (b : Budget) : Except Failure Unit :=
  if b.timeout.nanos = 0 then .error (.invalidOptions "timeout must be positive")
  else if b.maxLines = 0 then .error (.invalidOptions "maxOutputLines must be positive")
  else if b.maxBytes = 0 then .error (.invalidOptions "maxOutputBytes must be positive")
  else .ok ()

/-- The JSON form. -/
def toJson (b : Budget) : Json.Value :=
  .record [("timeout", .nat b.timeout.millisCapped), ("maxOutputLines", .nat b.maxLines),
    ("maxOutputBytes", .nat b.maxBytes)]

/-- A budget from its JSON form; a missing limit is the standard one, and members under other names
count for nothing. -/
def ofJson? : Json.Decoder Budget := fun v => do
  match ← Json.Decoder.fields ["timeout", "maxOutputLines", "maxOutputBytes"] false v with
  | [timeout, lines, bytes] =>
    let ms ← Json.Decoder.withDefault (Json.Decoder.word 64) standard.timeout.millis timeout
    let lines ← Json.Decoder.withDefault (Json.Decoder.word 64) standard.maxLines lines
    let bytes ← Json.Decoder.withDefault (Json.Decoder.word 64) standard.maxBytes bytes
    pure ⟨.ofMillis ms, lines, bytes⟩
  | _ => none

/-- A usable budget has three positive limits. -/
theorem validate_eq_ok_iff (b : Budget) :
    b.validate = .ok () ↔ 0 < b.timeout.nanos ∧ 0 < b.maxLines ∧ 0 < b.maxBytes := by
  unfold validate
  split
  · simp_all
  · split
    · simp_all
    · split
      · simp_all
      · simp only [true_iff]; omega

/-- A budget is refused as such. -/
theorem invalidOptions_of_validate {b : Budget} {f : Failure} (invalid : b.validate = .error f) :
    ∃ reason, f = .invalidOptions reason := by
  unfold validate at invalid
  split at invalid
  · exact ⟨_, (Except.error.inj invalid).symm⟩
  · split at invalid
    · exact ⟨_, (Except.error.inj invalid).symm⟩
    · split at invalid
      · exact ⟨_, (Except.error.inj invalid).symm⟩
      · cases invalid

end Budget

end SnippetRunner
