import SnippetRunner.Bench.Pack
import SnippetRunner.Worker.Incoming

/-!
# Connections to rehearsed workers

A rehearsed process with the readers at its two pipes, and the messages that they have passed on.
What the process writes arrives at once and in the order in which it was written.
-/

namespace SnippetRunner.Bench

/-- A rehearsed process and what the host has of it. -/
structure Connection where
  pack : Pack
  events : Worker.EventReader
  text : Worker.TextReader
  /-- How many bytes have arrived on the pipe that is not for events. -/
  arrived : Nat
  /-- The messages that have been passed on since somebody looked, the oldest one first. -/
  messages : List Worker.Message
  /-- Both pipes have come to their end. -/
  closed : Bool

namespace Connection

/-- The connection to a process that has just been started. -/
def start (p : Player) : Connection := ⟨.start p, .start, .start, 0, [], false⟩

/-- The process has ended. -/
def hasEnded (c : Connection) : Bool := c.pack.hasEnded

/-- The events that have been read are passed on. -/
def passEvents (c : Connection) : Connection :=
  let (events, reader) := c.events.take
  { c with events := reader, messages := c.messages ++ events.map .event }

/-- Text of the other pipe is passed on. -/
def passText (c : Connection) (t : Option String × Worker.TextReader) : Connection :=
  { c with text := t.2, messages := c.messages ++ (t.1.map Worker.Message.stderr).toList }

/-- Both pipes come to their end. -/
def close (c : Connection) : Connection :=
  if c.closed then c
  else
    let c := { c with events := c.events.close }.passEvents
    { c.passText c.text.close with closed := true }

/-- The process is killed, and its pipes come to their end. -/
def kill (c : Connection) : Connection := { c with pack := c.pack.kill }.close

/-- The status of the process is asked for. -/
def tryWait (c : Connection) : Option Child.Status × Connection :=
  let (status, pack) := c.pack.tryWait
  (status, { c with pack })

/-- The process has written to a pipe that nobody reads. -/
def unheard (c : Connection) : Connection :=
  let c := { c with pack := c.pack.setLeader c.pack.leader.unheard }
  if c.hasEnded then c.close else c

/-- An effect of the process arrives. The process of a line that is too long is killed, and a process
whose pipe for events is not read any more notices when it writes to it. -/
def deliver (c : Connection) (e : Effect) : Connection :=
  if c.closed then c
  else match e with
    | .write .stdout bytes =>
      if c.events.halt.isSome then c.unheard
      else
        let c := { c with events := c.events.feed bytes }.passEvents
        if c.events.halt = some .oversized then c.kill else c
    | .write .stderr bytes =>
      { (Worker.chunks c.arrived bytes).foldl (fun c chunk => c.passText (c.text.feed chunk)) c with
        arrived := c.arrived + bytes.length }
    | .closed => c.close
    | .forked _ _ => c

/-- How many steps a process may take without time passing. -/
def patience : Nat := 1000000

/-- The process goes on until it has to wait. The first argument bounds the number of its steps. -/
def runFor : Nat → Nat → Connection → Connection
  | 0, _, c => c
  | fuel + 1, now, c =>
    match c.pack.step now with
    | none => c
    | some (pack, effects) => runFor fuel now (effects.foldl deliver { c with pack })

/-- The process goes on until it has to wait. -/
def run (c : Connection) (now : Nat) : Connection := runFor patience now c

/-- The process has something to do now. -/
def isActive (c : Connection) (now : Nat) : Bool := (c.pack.step now).isSome

/-- The process has a line written to it. -/
def feed (c : Connection) (line : List UInt8) : Connection :=
  let leader := { c.pack.leader with input := c.pack.leader.input ++ line }
  { c with pack := { c.pack with leader } }

/-- How many bytes wait in the pipe before a writer has to wait too. -/
def pipeSize : Nat := 65536

/-- What the host wrote has not gone into the pipe yet. -/
def isStalled (c : Connection) : Bool := pipeSize < c.pack.leader.input.length

end Connection

end SnippetRunner.Bench
