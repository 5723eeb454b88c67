import SnippetRunner.Bench.Player
import SnippetRunner.Child.Group

/-!
# Packs of rehearsed processes

A rehearsed process with those that it has started. They form a process group, see the same files,
and may all have the pipes of the first one open; the pipes come to their end when none of them has.
-/

namespace SnippetRunner.Bench

/-- A process that another one has started. -/
structure Follower where
  pid : Nat
  player : Player
  /-- It has the pipes of its leader open. -/
  hasPipes : Bool

/-- A process and those that it has started. -/
structure Pack where
  leader : Player
  followers : List Follower
  group : Child.Group
  /-- The leader has its pipes open. -/
  hasPipes : Bool

namespace Pack

/-- A process that has just been started. -/
def start (p : Player) : Pack := ⟨p, [], .start, true⟩

/-- Some process has the pipes open. -/
def isOpen (k : Pack) : Bool :=
  k.hasPipes || k.followers.any fun f => f.hasPipes && !f.player.hasEnded

/-- All processes see the files as one of them has left them. -/
def share (k : Pack) (nodes : List (Files.Place × Files.Node)) : Pack :=
  let see (p : Player) : Player :=
    { p with around := { p.around with tree := { p.around.tree with nodes } } }
  { k with
    leader := see k.leader
    followers := k.followers.map fun f => { f with player := see f.player } }

/-- A node belongs to a workspace alone, and not to the files that all workers see. -/
def isPrivate (w : Files.Workspace) (e : Files.Place × Files.Node) : Bool :=
  (Stage.direct w.root).isPrefixOf e.1

/-- The files that all workers see, as this pack has left them. -/
def outside (k : Pack) : List (Files.Place × Files.Node) :=
  k.leader.around.tree.nodes.filter fun e => !isPrivate k.leader.around.workspace e

/-- The pack sees the files that all workers see as others have left them. -/
def mingle (k : Pack) (nodes : List (Files.Place × Files.Node)) : Pack :=
  k.share (nodes ++ k.leader.around.tree.nodes.filter (isPrivate k.leader.around.workspace))

/-- A process begins to run. -/
def enlist (k : Pack) (p : Player) (hasPipes : Bool) : Pack :=
  let pid := k.followers.length + 1
  { k with followers := k.followers ++ [⟨pid, p, hasPipes⟩], group := k.group.fork pid }

/-- What a step of one process means for the others. Of its effects those are left that go to the
pipes. -/
def notice (k : Pack) (effects : List Effect) : Pack × List Effect :=
  effects.foldl
    (fun (s : Pack × List Effect) e =>
      match e with
      | .forked p hasPipes => (s.1.enlist p hasPipes, s.2)
      | e => (s.1, s.2 ++ [e])) (k, [])

/-- A process has taken a step, with these effects apart from closing its own pipes. -/
def after (k : Pack) (p : Player) (effects : List Effect) : Pack × List Effect :=
  let (k, effects) := (k.share p.around.tree.nodes).notice effects
  (k, if k.isOpen then effects else effects ++ [.closed])

/-- The pack with its leader in another state. -/
def setLeader (k : Pack) (leader : Player) : Pack :=
  { k with
    leader
    group := match leader.status? with
      | some s => k.group.finish s
      | none => k.group }

/-- The leader has taken a step. -/
def led (k : Pack) (leader : Player) (effects : List Effect) : Pack × List Effect :=
  let k := { k with hasPipes := k.hasPipes && !effects.any Effect.isClosed }
  (k.setLeader leader).after leader (effects.filter fun e => !e.isClosed)

/-- A follower has taken a step. -/
def followed (k : Pack) (f : Follower) (p : Player) (effects : List Effect) : Pack × List Effect :=
  let k : Pack := { k with
    followers := k.followers.map fun (g : Follower) =>
      if g.pid = f.pid then { f with player := p } else g
    group := if p.hasEnded then k.group.leave f.pid else k.group }
  k.after p (effects.filter fun e => !e.isClosed)

/-- One step of one of the processes, or nothing where all of them wait or have ended. -/
def step (k : Pack) (now : Nat) : Option (Pack × List Effect) :=
  match k.leader.step now with
  | some (p, effects) => some (k.led p effects)
  | none =>
    k.followers.findSome? fun f => (f.player.step now).map fun s => k.followed f s.1 s.2

/-- The handle kills the group. -/
def kill (k : Pack) : Pack :=
  let group := k.group.kill
  if k.group.reaped then k
  else { k with
    leader := k.leader.killed
    followers := k.followers.map fun f => { f with player := f.player.killed }
    group }

/-- The status of the leader is asked for. -/
def tryWait (k : Pack) : Option Child.Status × Pack :=
  let (status, group) := k.group.tryWait
  (status, { k with group })

/-- The leader has ended. -/
def hasEnded (k : Pack) : Bool := k.leader.hasEnded

/-- The moment at which a process that waits for the clock goes on. -/
def alarm? (k : Pack) (now : Nat) : Option Nat :=
  (k.leader.alarm? now).toList ++ (k.followers.filterMap fun f => f.player.alarm? now) |>.min?

end Pack

end SnippetRunner.Bench
