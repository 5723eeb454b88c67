import SnippetRunner.Bench.Script
import SnippetRunner.Bench.Shell
import SnippetRunner.Child.Status
import SnippetRunner.Snippet.Transcript
import SnippetRunner.Text.Blank
import SnippetRunner.Text.Quoted

/-!
# Rehearsed processes

A process that follows a script or a line of shell. It goes on by itself until it has to wait: for
the clock, for input, or for ever. Each step may write to one of its two pipes.
-/

namespace SnippetRunner.Bench

/-- Whether a process goes on. -/
inductive Fate where
  | running
  | hanging
  | ended (s : Child.Status)
  deriving DecidableEq, Repr

/-- A rehearsed process. -/
structure Player where
  around : Surroundings
  /-- The steps to come before the next request is read. -/
  todo : List Step
  /-- The steps for the requests to come. -/
  requests : List (List Step)
  /-- The steps for every request after those. -/
  after : List Step
  /-- The shell that decides what is done, instead of a script. -/
  shell : Option Shell
  /-- The moment before which nothing more is done, in milliseconds. -/
  wake : Nat
  /-- The number of the request at hand. -/
  id : Nat
  /-- The code of the request at hand. -/
  code : String
  /-- The request at hand, as it was sent. -/
  request : String
  /-- The bytes that wait to be read. -/
  input : List UInt8
  inputClosed : Bool
  fate : Fate

/-- What others notice of a step. -/
inductive Effect where
  | write (c : Channel) (bytes : List UInt8)
  /-- Both pipes are closed. -/
  | closed
  /-- Another process begins to run, which may have the pipes open too. -/
  | forked (p : Player) (hasPipes : Bool)

/-- Both pipes are closed. -/
def Effect.isClosed : Effect → Bool
  | .closed => true
  | _ => false

namespace Player

/-- A process that follows a script. -/
def ofScript (around : Surroundings) (s : Script) : Player :=
  ⟨around, s.start, s.requests, s.after, none, 0, 0, "", "", [], false, .running⟩

/-- A process that follows a shell. -/
def ofShell (around : Surroundings) (r : Running) : Player :=
  ⟨around, [], [], [], some ⟨[r], around.environment, 0⟩, 0, 0, "", "", [], false, .running⟩

/-- How the process ended, if it has. -/
def status? (p : Player) : Option Child.Status :=
  match p.fate with
  | .ended s => some s
  | _ => none

/-- The process has ended. -/
def hasEnded (p : Player) : Bool := p.status?.isSome

/-- The process is killed, if it has not ended by itself. -/
def killed (p : Player) : Player :=
  if p.hasEnded then p else { p with fate := .ended (.signal Child.sigKill) }

/-- The next line of the input with its newline, and the input after it. Where the input is closed,
its rest is a line; otherwise a line that is not complete has to be waited for. -/
def line? (p : Player) : Option (List UInt8 × List UInt8) :=
  let front := p.input.takeWhile fun b => b != 0x0A
  match p.input.drop front.length with
  | b :: rest => some (front ++ [b], rest)
  | [] => if p.inputClosed then some (front, []) else none

/-- A signal that a process sends itself. -/
def signalled (p : Player) (n : Nat) : Player :=
  -- by default these are ignored, and a broken pipe is reported in another way
  if n = 0 ∨ n = 13 ∨ n = 17 ∨ n = 18 ∨ n = 23 ∨ n = 28 then p
  else if n = 19 ∨ n = 20 ∨ n = 21 ∨ n = 22 then { p with fate := .hanging }
  else { p with fate := .ended (.signal n) }

/-- The process has written to a pipe that nobody reads: a script hangs, and a shell is ended. -/
def unheard (p : Player) : Player :=
  match p.shell with
  | none => { p with fate := .hanging }
  | some _ => { p with fate := .ended (.signal 13) }

/-! ## Reports -/

/-- The names of a limit and its value, twice: what is in force, and what it may be raised to. -/
def limitLine (l : Launch.Limits) (name : String) : String :=
  let value := match name with
    | "data" => limitText l.data 1
    | "fsize" => limitText (some l.fileSize) 1
    | "nofile" => limitText (some l.openFiles) 1
    | "nproc" => limitText l.processes 1
    | _ => "0"
  name ++ " " ++ value ++ " " ++ value

/-- Tries to make a file, and says whether that was possible. -/
def tryWrite (t : Files.Tree) (path : String) : String × Files.Tree :=
  match t.write (.ofText path) [] with
  | .ok t => ("write " ++ path ++ " true", t)
  | .error _ => ("write " ++ path ++ " false", t)

/-- The lines of a report on one topic. -/
def reportLines (a : Surroundings) (t : Topic) : List String × Surroundings :=
  match t with
  | .environment => (a.environment.map fun e => e.1 ++ "=" ++ e.2, a)
  | .arguments => (a.arguments.map fun s => "arg " ++ s, a)
  | .directory => (["cwd " ++ (Files.Tree.pathOf a.tree.working).display], a)
  | .group => (["group true"], a)
  | .files => (a.workspace.listing a.tree, a)
  | .writing =>
    ["w1", "../tmp/w2", "../home/w3"].foldl
      (fun (s : List String × Surroundings) path =>
        let (line, tree) := tryWrite s.2.tree path
        (s.1 ++ [line], { s.2 with tree })) ([], a)
  | .limit name => ([limitLine a.limits name], a)

/-! ## Steps of a script -/

/-- The step is done. -/
def prints (p : Player) (c : Channel) (bytes : List UInt8) : Player × List Effect :=
  (p, if bytes = [] then [] else [.write c bytes])

/-- One step of a script, or nothing where it has to wait. -/
def perform (p : Player) (now : Nat) (s : Step) : Option (Player × List Effect) :=
  match s with
  | .ready version =>
    some (p.prints .stdout (eventLine [("type", .text "ready"), ("version", version)]))
  | .stdout text => some (p.prints .stdout (outputLine p.id "stdout" text))
  | .done fault => some (p.prints .stdout (doneLine p.id fault))
  | .echo stream => some (p.prints .stdout (outputLine p.id stream p.code))
  | .request => some (p.prints .stdout (outputLine p.id "stdout" p.request))
  | .line bytes => some (p.prints .stdout (bytes ++ [0x0A]))
  | .raw bytes => some (p.prints .stdout bytes)
  | .big size => some (p.prints .stdout (bigLine p.id size))
  | .stderr bytes => some (p.prints .stderr bytes)
  | .sleep ms => some ({ p with wake := now + ms }, [])
  | .hang => some ({ p with fate := .hanging }, [])
  | .close => some ({ p with fate := .hanging }, [.closed])
  | .exit code => some ({ p with fate := .ended (.code (code % 256)) }, [.closed])
  | .signal n => some (p.signalled n, if (p.signalled n).hasEnded then [.closed] else [])
  | .stdin =>
    match p.line? with
    | none => none
    | some (line, rest) =>
      some (({ p with input := rest }).prints .stdout
        (Text.utf8 ("stdin " ++ Text.quoted (Text.decodeLossy line) ++ "\n")))
  | .report topics =>
    let (lines, around) := topics.foldl
      (fun (s : List String × Surroundings) t =>
        let (more, a) := reportLines s.2 t
        (s.1 ++ more, a)) ([], p.around)
    some (({ p with around }).prints .stdout (lines.flatMap fun l => Text.utf8 (l ++ "\n")))

/-- A request is taken up. -/
def accept (p : Player) (line : List UInt8) : Player :=
  let text := Text.decodeLossy (line.filter fun b => b != 0x0A)
  let v := (Json.parse? text).getD .null
  let id := match v.get? "id" with
    | some (.number n) => ((n.int?).getD 0).toNat
    | _ => 0
  let code := match v.get? "code" with
    | some (.string (some s)) => s
    | _ => ""
  let (todo, requests) := match p.requests with
    | steps :: rest => (steps, rest)
    | [] => (p.after, [])
  { p with todo, requests, id, code, request := text }

/-! ## Steps of a shell -/

/-- Writes bytes where a stream goes. -/
def sendTo (a : Surroundings) (t : Target) (bytes : List UInt8) : Surroundings × List Effect :=
  match t with
  | .stream n => (a, if bytes = [] then [] else [.write (if n = 2 then .stderr else .stdout) bytes])
  | .file append path =>
    let p := Path.ofText path
    let old := if append then ((a.tree.read p).toOption).getD [] else []
    match a.tree.write p (old ++ bytes) with
    | .ok tree => ({ a with tree }, [])
    | .error e =>
      (a, [.write .stderr (Text.utf8 ("/bin/sh: 1: cannot create " ++ path ++ ": " ++
        e.words ++ "\n"))])

/-- A command is carried out, or has to wait. -/
def command (p : Player) (now : Nat) (sh : Shell) (r : Running) (outer : List Running)
    (c : Command) (rest : List Command) : Option (Player × List Effect) :=
  let goOn (status : Nat) : Shell := ⟨{ r with commands := rest } :: outer, sh.bindings, status⟩
  let parsed := sh.parse ⟨[], .stream 1, .stream 2, none⟩ c.tokens
  let wanted : Bool := match c.joint with
    | .always => true
    | .onSuccess => sh.status == 0
    | .onFailure => sh.status != 0
  if !wanted then some ({ p with shell := some (goOn sh.status) }, [])
  else if c.isAside then
    let other : Player := { p with
      shell := some ⟨[⟨[{ c with joint := .always, isAside := false }], r.arguments⟩], sh.bindings, 0⟩
      input := []
      inputClosed := true }
    some ({ p with shell := some (goOn 0) },
      [.forked other (parsed.out.isStream || parsed.err.isStream)])
  else match parsed.words with
    | [] =>
      let (around, effects) := sendTo p.around parsed.out []
      some ({ p with around, shell := some (goOn 0) }, effects)
    | name :: args =>
      match assignment? name, args with
      | some (k, v), [] =>
        some ({ p with shell := some { goOn 0 with bindings := sh.bindings.set k v } }, [])
      | _, _ =>
        match sh.act p.around name args with
        | .prints status out err =>
          let (around, e1) := sendTo p.around parsed.out out
          let (around, e2) := sendTo around parsed.err err
          some ({ p with around, shell := some (goOn status) }, e1 ++ e2)
        | .exits status =>
          some ({ p with shell := some ⟨⟨[], r.arguments⟩ :: outer, sh.bindings, status⟩ }, [])
        | .runs inner =>
          some ({ p with shell := some { goOn sh.status with
            scripts := inner :: { r with commands := rest } :: outer } }, [])
        | .sleeps ms => some ({ p with shell := some (goOn 0), wake := now + ms }, [])
        | .signals n =>
          let p := { p with shell := some (goOn 0) }
          some (p.signalled n, if (p.signalled n).hasEnded then [.closed] else [])
        | .reads target =>
          match p.line? with
          | none => none
          | some (line, input) =>
            let text := Text.trim (Text.decodeLossy line)
            let status := if line.contains 0x0A then 0 else 1
            some ({ p with
              input, shell := some { goOn status with bindings := sh.bindings.set target text } },
              [])
        | .copies =>
          match parsed.input with
          | some path =>
            let bytes := ((p.around.tree.read (.ofText path)).toOption).getD []
            let (around, effects) := sendTo p.around parsed.out bytes
            some ({ p with around, shell := some (goOn 0) }, effects)
          | none =>
            if p.inputClosed then
              let (around, effects) := sendTo p.around parsed.out p.input
              some ({ p with around, input := [], shell := some (goOn 0) }, effects)
            else if p.input = [] then none
            else
              let (around, effects) := sendTo p.around parsed.out p.input
              some ({ p with around, input := [] }, effects)

/-- One step of a shell, or nothing where it has to wait. -/
def shellStep (p : Player) (now : Nat) (sh : Shell) : Option (Player × List Effect) :=
  match sh.scripts with
  | [] => some ({ p with fate := .ended (.code (sh.status % 256)) }, [.closed])
  | ⟨[], _⟩ :: outer => some ({ p with shell := some { sh with scripts := outer } }, [])
  | r :: outer =>
    match r.commands with
    | [] => some ({ p with shell := some { sh with scripts := outer } }, [])
    | c :: rest => p.command now sh r outer c rest

/-- One step, or nothing where the process waits or has come to its end. -/
def step (p : Player) (now : Nat) : Option (Player × List Effect) :=
  match p.fate with
  | .running =>
    if now < p.wake then none
    else match p.shell, p.todo with
      | some sh, _ => p.shellStep now sh
      | none, s :: rest => ({ p with todo := rest }).perform now s
      | none, [] =>
        match p.line? with
        | none => none
        | some ([], _) => some ({ p with fate := .ended (.code 0) }, [.closed])
        | some (line, rest) => some (({ p with input := rest }).accept line, [])
  | _ => none

/-- The moment at which a process that waits for the clock goes on. -/
def alarm? (p : Player) (now : Nat) : Option Nat :=
  match p.fate with
  | .running => if now < p.wake then some p.wake else none
  | _ => none

end Player

end SnippetRunner.Bench
