import SnippetRunner.Launch.Plan
import SnippetRunner.Text.Quoted

/-!
# Checking launch plans

A plan is refused if starting it would fail in a confusing way or if one of its files could land
outside the workspace. Of several faults the first one in reading order decides: command,
environment, working directory, files.
-/

namespace SnippetRunner.Launch

/-- Why a plan is refused. -/
inductive Refusal where
  | emptyCommand
  | emptyArgument (index : Nat)
  | relativeBinary (binary : String)
  | nullByte
  | invalidEnvKey (key : String)
  | pathTraversal
  | absolutePath
  | emptyPath
  deriving DecidableEq, Repr

/-- The cause in words. -/
def Refusal.message : Refusal → String
  | .emptyCommand => "command cannot be empty"
  | .emptyArgument i => "argument " ++ Text.decimal i ++ " is empty"
  | .relativeBinary b => "binary must be an absolute path: " ++ b
  | .nullByte => "null byte in input"
  | .invalidEnvKey k => "invalid environment variable name: " ++ Text.quoted k
  | .pathTraversal => "path traversal not allowed"
  | .absolutePath => "absolute path not allowed"
  | .emptyPath => "path cannot be empty"

/-- The text holds a character of code zero. -/
def hasNul (s : String) : Bool := s.toList.any fun c => c == '\x00'

/-- Checks the arguments from the one with this index on. -/
def checkArguments : Nat → List String → Except Refusal Unit
  | _, [] => .ok ()
  | i, a :: rest =>
    if a = "" then .error (.emptyArgument i)
    else if hasNul a then .error .nullByte
    else checkArguments (i + 1) rest

/-- A command has a first word, and no argument is empty or holds a null byte. -/
def checkCommand : List String → Except Refusal Unit
  | [] => .error .emptyCommand
  | args => checkArguments 0 args

/-- An environment entry has a name without an equals sign, and no null bytes. -/
def checkEnv (key value : String) : Except Refusal Unit :=
  if key = "" ∨ key.toList.any (fun c => c == '=') then .error (.invalidEnvKey key)
  else if hasNul key ∨ hasNul value then .error .nullByte
  else .ok ()

/-- The path holds a component that leads upwards. -/
def hasTraversal (path : String) : Bool :=
  (Path.ofText path).components.any fun c => c == .parent

/-- A path in the workspace is relative and never leads upwards. -/
def checkPath (path : String) : Except Refusal Unit :=
  if path = "" then .error .emptyPath
  else if hasNul path then .error .nullByte
  else if path.toList.head? = some '/' then .error .absolutePath
  else if hasTraversal path then .error .pathTraversal
  else .ok ()

/-- Checks that the binary of a command is an absolute path. -/
def checkBinary : List String → Except Refusal Unit
  | [] => .ok ()
  | b :: _ => if b.toList.head? = some '/' then .ok () else .error (.relativeBinary b)

/-- Checks a whole plan. -/
def check (p : Plan) : Except Refusal Unit := do
  checkCommand p.command
  checkBinary p.command
  p.environment.forM fun e => checkEnv e.1 e.2
  checkPath p.directory
  p.files.forM fun f => checkPath f.path

end SnippetRunner.Launch
