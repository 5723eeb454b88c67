import SnippetRunner.Interpreter.Search

/-!
# A stage for rehearsals

A small host made to order: a file tree with the few directories that every host has, and
interpreters that answer from a script instead of running code. Discovery, probing and workers can
be rehearsed on it.
-/

namespace SnippetRunner.Bench

/-- An interpreter that answers from a script: what it prints as a probe, how it exits then, and
what it prints for each request when it runs as a worker. -/
structure Interpreter where
  stdout : List UInt8
  stderr : List UInt8
  code : Nat
  requests : List (List UInt8)
  deriving DecidableEq, Repr

/-- A host made to order. -/
structure Stage where
  tree : Files.Tree
  /-- The interpreters, by where they stand. -/
  interpreters : List (Files.Place × Interpreter)
  deriving DecidableEq, Repr

/-- When the files of a fresh stage last changed. -/
def freshTime : Nat := Nat.pow 10 12

namespace Stage

/-- The directories that are there from the start. -/
def directories : List Path :=
  ["/root/run", "/tmp", "/usr/bin", "/usr/lib", "/bin", "/lib", "/lib64", "/sbin", "/etc", "/dev",
    "/proc", "/opt", "/home", "/var/tmp"].map .ofText

/-- A file that can be executed by everyone. -/
def program : Files.Node := .file ⟨[0x7F, 0x45, 0x4C, 0x46], 0o755, freshTime⟩

/-- The place of the shell. -/
def shell : Files.Place := [Text.utf8 "bin", Text.utf8 "sh"]

/-- The places of the programs that are there from the start, apart from the shell. -/
def programs : List Files.Place :=
  ["true", "false", "cat", "echo", "sleep", "ls"].map fun n => [Text.utf8 "bin", Text.utf8 n]

/-- A stage without anything of its own. -/
def bare : Stage :=
  let t : Files.Tree := ⟨[], [Text.utf8 "root", Text.utf8 "run"]⟩
  let t := directories.foldl (fun t p => (t.ensureDirectory p).toOption.getD t) t
  ⟨(shell :: programs).foldl (fun t p => t.put p program) t, []⟩

/-- The directory that holds a path is made. -/
def prepare (s : Stage) (p : Path) : Files.Tree :=
  match p.parent? with
  | some above => (s.tree.ensureDirectory above).toOption.getD s.tree
  | none => s.tree

/-- The names that lead to a path that passes no link. -/
def direct (p : Path) : Files.Place := (Files.Tree.names p).filter fun n => n != [Path.dot]

/-- The stage with a directory. -/
def withDirectory (s : Stage) (p : Path) : Stage :=
  { s with tree := (s.tree.ensureDirectory p).toOption.getD s.tree }

/-- The place where a new name goes: links on the way to it are followed. -/
def placeFor (t : Files.Tree) (p : Path) : Files.Place :=
  match t.target p with
  | .ok (place, some n, _) => place ++ [n]
  | _ => direct p

/-- The stage with a file. -/
def withFile (s : Stage) (p : Path) (content : List UInt8) (mode : Nat) : Stage :=
  let t := s.prepare p
  { s with tree := t.put (placeFor t p) (.file ⟨content, mode, freshTime⟩) }

/-- The stage with a link. -/
def withLink (s : Stage) (p goal : Path) : Stage :=
  let t := s.prepare p
  { s with tree := t.put (placeFor t p) (.link goal) }

/-- The stage with an interpreter. -/
def withInterpreter (s : Stage) (p : Path) (i : Interpreter) (mode : Nat) : Stage :=
  let s := s.withFile p (Text.utf8 "#!/bin/sh\n") mode
  { s with interpreters := (placeFor s.tree p, i) :: s.interpreters }

/-- The interpreter at a place. -/
def interpreter? (s : Stage) (p : Files.Place) : Option Interpreter :=
  (s.interpreters.find? fun e => e.1 == p).map Prod.snd

/-- Something that the system can execute. -/
inductive Executable where
  | interpreter (i : Interpreter)
  /-- A script for the shell. -/
  | script (text : String)
  /-- A program of the system. -/
  | program (place : Files.Place)
  deriving DecidableEq, Repr

/-- What executing a path starts. A directory and a file that nobody may execute are refused, and so
is a file that is neither a program nor a script with an interpreter line. -/
def executable (s : Stage) (t : Files.Tree) (p : Path) : Except FileError Executable :=
  if p.bytes.contains 0 then .error .nulArgument
  else match t.locate p with
    | .error e => .error e
    | .ok (place, .file f) =>
      if f.mode &&& 0o111 = 0 then .error .permissionDenied
      else match s.interpreter? place with
        | some i => .ok (.interpreter i)
        | none =>
          if place = shell ∨ programs.contains place then .ok (.program place)
          else if (Text.utf8 "#!/bin/sh").isPrefixOf f.content then
            .ok (.script (Text.decodeLossy f.content))
          else .error .execFormat
    | .ok _ => .error .permissionDenied

/-- What the program under a path prints as a probe. A script of the shell that is no interpreter
prints nothing. -/
def run (s : Stage) (p : Path) : Except FileError Interpreter.Finished :=
  match s.executable s.tree p with
  | .error e => .error e
  | .ok (.interpreter i) => .ok ⟨i.code == 0, i.stdout, i.stderr⟩
  | .ok _ => .ok ⟨true, [], []⟩

/-- The stage as discovery and probing see it, with these environment variables. -/
def host (s : Stage) (environment : List (String × List UInt8)) :
    SnippetRunner.Interpreter.Host where
  tree := s.tree
  environment := environment
  run := s.run

end Stage

end SnippetRunner.Bench
