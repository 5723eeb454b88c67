import SnippetRunner.Interpreter.Node
import SnippetRunner.Interpreter.Python
import SnippetRunner.Settings.Toml
import SnippetRunner.Text.Blank
import SnippetRunner.Text.Quoted

/-!
# Settings from files and from the environment

The environment can name a file with settings, and override the two interpreters and the standard
timeout. The settings are checked when all overrides have been made, and those of a file also
before.
-/

namespace SnippetRunner

namespace Settings

/-- The variable that names the file with settings. -/
def fileVariable : String := "SNIPBOX_CONFIG"

/-- The variable that gives the standard timeout in milliseconds. -/
def timeoutVariable : String := "SNIPBOX_TIMEOUT_MS"

/-- The settings in a file. -/
def ofFile (t : Files.Tree) (p : Path) (wording : Wording := {}) : Except Failure Settings :=
  match t.readText p with
  | .error e => .error (.invalidConfig ("cannot read " ++ p.display ++ ": " ++ e.message))
  | .ok text => ofToml text wording

/-- The settings with the timeout that a variable gives. A value that is no text counts as none. -/
def withTimeout (s : Settings) (value : Option (List UInt8)) : Except Failure Settings :=
  match value.bind Text.decode? with
  | none => .ok s
  | some text =>
    match Text.word? (Text.trim text) with
    | .ok ms => .ok { s with budget := { s.budget with timeout := .ofMillis ms } }
    | .error e =>
      .error (.invalidConfig (timeoutVariable ++ "=" ++ Text.quoted text ++ ": " ++ e.message))

/-- The settings that the environment of a host gives. -/
def ofEnvironment (h : Interpreter.Host) : Except Failure Settings := do
  let s ← match h.lookup? fileVariable with
    | some value => ofFile h.tree ⟨value⟩ h.wording
    | none => .ok standard
  let s := match h.lookup? Interpreter.Python.binaryVariable with
    | some value => { s with python := { s.python with binary := some ⟨value⟩ } }
    | none => s
  let s := match h.lookup? Interpreter.Node.binaryVariable with
    | some value => { s with javascript := { s.javascript with binary := some ⟨value⟩ } }
    | none => s
  let s ← s.withTimeout (h.lookup? timeoutVariable)
  s.validate
  .ok s

end Settings

end SnippetRunner
