import SnippetRunner.Child.Status

/-!
# Process groups

A worker leads a group of its own, to which everything that it starts belongs. A handle kills the
whole group, as long as nobody has asked for the status of the leader: after that its number may
belong to somebody else.
-/

namespace SnippetRunner.Child

/-- What has become of the leader of a group. -/
inductive Leader where
  | running
  | ended (s : Status)
  deriving DecidableEq, Repr

/-- A group: its leader, the members besides it that are alive, and whether the status of the leader
has been asked for. -/
structure Group where
  leader : Leader
  members : List Nat
  reaped : Bool
  deriving DecidableEq, Repr

namespace Group

/-- A leader that has just been started. -/
def start : Group := ⟨.running, [], false⟩

/-- The leader is alive. -/
def leads (g : Group) : Bool := g.leader == .running

/-- A member starts another process. -/
def fork (g : Group) (pid : Nat) : Group := { g with members := pid :: g.members }

/-- The leader ends, by itself or by a signal. -/
def finish (g : Group) (s : Status) : Group :=
  match g.leader with
  | .running => { g with leader := .ended s }
  | .ended _ => g

/-- A member ends by itself. -/
def leave (g : Group) (pid : Nat) : Group := { g with members := g.members.filter fun m => m != pid }

/-- The handle kills the group. -/
def kill (g : Group) : Group :=
  if g.reaped then g else { g.finish (.signal sigKill) with members := [] }

/-- The status of the leader, if it has ended; having been told, the handle does nothing more. -/
def tryWait (g : Group) : Option Status × Group :=
  match g.leader with
  | .running => (none, g)
  | .ended s => (some s, { g with reaped := true })

/-- The worker is killed, and its status is asked for. -/
def destroy (g : Group) : Option Status × Group := g.kill.tryWait

/-- The worker is given up: the handle kills the group. -/
def drop (g : Group) : Group := g.kill

end Group

end SnippetRunner.Child
