import SnippetRunner.Failure
import SnippetRunner.Files.Tree
import SnippetRunner.Interpreter.Profile
import SnippetRunner.Text.Blank

/-!
# Searching for interpreters

Discovery looks at a configured path, at environment variables, along the search path and at a few
fixed places, in this order. What it sees of the host are its files, its environment, and what a
program prints when it is run.
-/

namespace SnippetRunner.Interpreter

/-- What a program printed and whether it ended well. -/
structure Finished where
  success : Bool
  stdout : List UInt8
  stderr : List UInt8
  deriving DecidableEq, Repr

/-- The host as discovery and probing see it. -/
structure Host where
  tree : Files.Tree
  /-- The environment variables, whose values need not be texts. -/
  environment : List (String × List UInt8)
  /-- What the program under a path prints when it is run as a probe. -/
  run : Path → Except FileError Finished
  /-- What the libraries say of texts that they refuse. -/
  wording : Wording := {}

namespace Host

/-- The end of the message that an interpreter does not describe itself: why, and what it printed. -/
def refusal (h : Host) (name printed : String) : String :=
  match h.wording.json with
  | none => ""
  | some words => " " ++ words name (Text.trim printed) ++ "\n" ++ printed

/-- The value of an environment variable. -/
def lookup? (h : Host) (name : String) : Option (List UInt8) :=
  (h.environment.find? fun e => e.1 == name).map Prod.snd

/-- The path, if an executable file stands there. -/
def executable? (h : Host) (p : Path) : Option Path :=
  if h.tree.isExecutable p then some p else none

/-- The parts of a search path. -/
def searchPath (value : List UInt8) : List Path :=
  let go := value.foldr
    (fun b (parts : List (List UInt8)) =>
      if b = 0x3A then [] :: parts
      else match parts with
        | [] => [[b]]
        | p :: ps => (b :: p) :: ps)
    [[]]
  go.map Path.mk

/-- The executable of this name on the search path; a name with a separator is a path itself. -/
def onSearchPath? (h : Host) (name : String) : Option Path :=
  let p := Path.ofText name
  if p.bytes.contains Path.separator then h.executable? p
  else match h.lookup? "PATH" with
    | none => none
    | some value => (searchPath value).findSome? fun dir => h.executable? (dir.append p)

/-- The first of these names that is on the search path, else the first of these places that holds
an executable. -/
def binary? (h : Host) (names places : List String) : Option Path :=
  match names.findSome? h.onSearchPath? with
  | some p => some p
  | none => places.findSome? fun place => h.executable? (.ofText place)

/-- The executable that an environment variable names. -/
def variableBinary? (h : Host) (name : String) : Option Path :=
  (h.lookup? name).bind fun value => h.executable? ⟨value⟩

/-- The executable in the directory that an environment variable names, below `bin` or else
directly. -/
def variableDirectory? (h : Host) (name binary : String) : Option Path :=
  match h.lookup? name with
  | none => none
  | some value =>
    let dir : Path := ⟨value⟩
    if h.tree.isDirectory dir then
      match h.executable? ((dir.child "bin").child binary) with
      | some p => some p
      | none => h.executable? (dir.child binary)
    else none

end Host

/-- The places that discovery looks at, one line each. -/
def searchedLines (vars names places : List String) : String :=
  "\n".intercalate (vars.map (fun v => "    $" ++ v) ++ names.map (fun n => "    PATH: " ++ n) ++
    places.map (fun p => "    " ++ p))

/-- The line for a configured path. -/
def configuredLine (p : Path) : String := "    " ++ p.display ++ " (configured)"

/-- The directory that an installation has its files in, given its binary: the one above `bin`
unless that is the root, else the one that holds the binary. -/
def installation? (binary : Path) : Option Path :=
  match binary.parent? with
  | none => none
  | some bin =>
    match bin.parent? with
    | none => some bin
    | some above =>
      if bin.endsWith (.ofText "bin") && above.parent?.isSome then some above else some bin

/-- A way to find an interpreter and to ask it about itself. -/
structure Probe where
  name : String
  /-- The binary, if discovery finds one. -/
  detect : Host → Option Path
  /-- The places that discovery looks at. -/
  searched : String
  /-- What the interpreter tells about itself. -/
  ask : Host → Path → Except ProbeFailure Profile

/-- The binary, or the failure that lists where it was searched. -/
def Probe.locate (p : Probe) (h : Host) : Except ProbeFailure Path :=
  match p.detect h with
  | some b => .ok b
  | none => .error (.notFound p.name p.searched)

end SnippetRunner.Interpreter
