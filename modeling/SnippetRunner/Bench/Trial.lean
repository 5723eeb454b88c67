import SnippetRunner.Bench.Pack
import SnippetRunner.Bench.Spawn

/-!
# Trials of a single process

A process gets its whole input at once. It runs to its end, or is killed as soon as it has to wait.
-/

namespace SnippetRunner.Bench

/-- A process on trial. -/
structure Trial where
  pack : Pack
  out : List UInt8
  err : List UInt8

namespace Trial

/-- A process that has just been started, to which some input was written before the pipe was
closed. -/
def start (p : Player) (input : List UInt8) : Trial :=
  ⟨.start { p with input, inputClosed := true }, [], []⟩

/-- What an effect adds to the output. -/
def collect (t : Trial) (e : Effect) : Trial :=
  match e with
  | .write .stdout bytes => { t with out := t.out ++ bytes }
  | .write .stderr bytes => { t with err := t.err ++ bytes }
  | .closed | .forked _ _ => t

/-- The process goes on; where it waits for the clock it goes on too if there is patience with it.
The first argument bounds the number of its steps. -/
def run (isPatient : Bool) : Nat → Nat → Trial → Trial
  | 0, _, t => t
  | fuel + 1, now, t =>
    match t.pack.step now with
    | some (pack, effects) => run isPatient fuel now (effects.foldl collect { t with pack })
    | none =>
      match t.pack.alarm? now with
      | some moment => if isPatient then run isPatient fuel moment t else t
      | none => t

/-- How many steps a process may take. -/
def maxSteps : Nat := 1000000

/-- The process has run until it ended or had to wait, for ever or at all; then it is killed. -/
def toEnd (t : Trial) (isPatient : Bool) : Trial :=
  let t := run isPatient maxSteps 0 t
  { t with pack := t.pack.kill }

/-- What the handle knows of the group. -/
def group (t : Trial) : Child.Group := t.pack.group

/-- The status that the handle tells. -/
def status (t : Trial) : Option Child.Status × Trial :=
  let (status, pack) := t.pack.tryWait
  (status, { t with pack })

/-- Nothing of the workspace is left once it has been given up. -/
def leavesNothing (t : Trial) : Bool :=
  let around := t.pack.leader.around
  !(around.workspace.discard around.tree).has around.workspace.root

end Trial

end SnippetRunner.Bench
