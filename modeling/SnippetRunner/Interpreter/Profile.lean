import SnippetRunner.Launch.Plan

/-!
# Interpreter profiles

What probing an interpreter tells: the binary that was found, the program to launch, its version,
and the host paths a worker must be able to read. Also the ways in which probing can fail.
-/

namespace SnippetRunner.Interpreter

/-- What a worker needs from the host to run an interpreter. -/
structure Profile where
  /-- The binary found by discovery, which may only launch the interpreter. -/
  binary : Path
  /-- The program to launch. -/
  executable : Path
  version : Option String
  /-- The paths that are granted for reading and executing; none covers another. -/
  readable : List Path
  environment : Launch.Environment
  deriving DecidableEq, Repr

namespace Profile

/-- The profile of a binary of which nothing is known. -/
def new (binary : Path) : Profile := ⟨binary, binary, none, [], []⟩

/-- The profile with one more readable path, unless an entry covers it already. -/
def withReadable (p : Profile) (path : Path) : Profile :=
  { p with readable := Path.addCover p.readable path }

/-- The profile with more readable paths. -/
def withAllReadable (p : Profile) (paths : List Path) : Profile :=
  paths.foldl withReadable p

end Profile

/-- Why probing failed. -/
inductive ProbeFailure where
  /-- No interpreter was found in the places listed. -/
  | notFound (runtime searched : String)
  /-- The interpreter did not run the probe to its end. -/
  | scriptFailed (reason : String)
  /-- The interpreter printed something else than a description of itself. -/
  | parse (reason : String)
  | io (reason : String)
  deriving DecidableEq, Repr

/-- The cause in words. -/
def ProbeFailure.message : ProbeFailure → String
  | .notFound r s => "runtime not found: " ++ r ++ "\n  searched:\n" ++ s
  | .scriptFailed r => "probe script failed: " ++ r
  | .parse r => "failed to parse probe output: " ++ r
  | .io r => "IO error: " ++ r

end SnippetRunner.Interpreter
