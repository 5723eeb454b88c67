/-!
# Failures

What can go wrong around an execution, by cause. What goes wrong inside the executed code is no
failure: it is part of the report.
-/

namespace SnippetRunner

/-- Why an operation was refused or could not be carried out. -/
inductive Failure where
  /-- No language is registered under the identifier. -/
  | unsupportedLanguage (identifier : String)
  /-- The runtime of a language did not start. -/
  | initialization (language message : String)
  /-- The runtime of a language has to be started first. -/
  | notInitialized (language : String)
  /-- The runtime of a language is executing something else. -/
  | busy (language : String)
  | invalidOptions (reason : String)
  | invalidConfig (reason : String)
  deriving DecidableEq, Repr

/-- The failure in words. -/
def Failure.message : Failure → String
  | .unsupportedLanguage l => "unsupported language: " ++ l
  | .initialization l m => "failed to initialize " ++ l ++ " runtime: " ++ m
  | .notInitialized l => l ++ " runtime is not initialized"
  | .busy l => l ++ " runtime is busy with another execution"
  | .invalidOptions r => "invalid options: " ++ r
  | .invalidConfig r => "invalid config: " ++ r

/-- What the readers of JSON and of TOML say of a text that they refuse. They are libraries with words
of their own, which end up in messages and decide nothing. -/
structure Wording where
  /-- Of a text that does not describe the interpreter of this name. Messages end before such words
  where none are given. -/
  json : Option (String → String → String) := none
  /-- Of a text that gives no settings. -/
  toml : String → String := fun _ => "TOML parse error"

end SnippetRunner
