import SnippetRunner.Bench.Stage
import SnippetRunner.Files.Workspace
import SnippetRunner.Launch.Plan

/-!
# A shell for rehearsals

Enough of a command language to rehearse workers that are started by a line of shell: simple
commands with quotes, variables and redirections, in sequence or joined by `&&` and `||`, or in the
background. A command that reads waits until a line has arrived.
-/

namespace SnippetRunner.Bench

/-! ## Words and commands -/

/-- A part of a word: characters that may have been quoted, or a variable. -/
inductive Part where
  | text (isQuoted : Bool) (cs : List Char)
  | value (isQuoted : Bool) (name : String)
  deriving DecidableEq, Repr

/-- A token of a command line. -/
inductive ShellToken where
  | word (parts : List Part)
  | andThen
  | orElse
  | next
  /-- The command before it is run in the background. -/
  | aside
  /-- Output of a stream goes to the file that follows, in its place or at its end. -/
  | output (stream : Nat) (append : Bool)
  /-- Output of a stream goes where another one goes. -/
  | same (stream target : Nat)
  /-- Input comes from the file that follows. -/
  | input
  deriving DecidableEq, Repr

/-- A character that ends a word. -/
def endsWord (c : Char) : Bool :=
  c == ' ' || c == '\t' || c == '\n' || c == ';' || c == '&' || c == '|' || c == '<' || c == '>'

/-- The name of a variable at the front, and what follows. -/
def variableName (cs : List Char) : String × List Char :=
  match cs with
  | '\x7b' :: r =>
    (String.ofList (r.takeWhile fun c => c != '\x7d'), (r.dropWhile fun c => c != '\x7d').drop 1)
  | c :: r =>
    if c.isAlpha || c == '_' then
      let isName (c : Char) : Bool := c.isAlphanum || c == '_'
      (String.ofList ((c :: r).takeWhile isName), (c :: r).dropWhile isName)
    else (String.ofList [c], r)
  | [] => ("", [])

/-- A word at the front, part by part, and what follows. `inQuotes` holds between double quotes. -/
def word : Nat → Bool → List Part → List Char → List Part × List Char
  | 0, _, done, cs => (done.reverse, cs)
  | fuel + 1, inQuotes, done, cs =>
    match cs with
    | [] => (done.reverse, [])
    | '"' :: r => word fuel (!inQuotes) (.text true [] :: done) r
    | '$' :: r =>
      match r with
      | [] => (((.text inQuotes ['$']) :: done).reverse, [])
      | _ =>
        let (name, r) := variableName r
        word fuel inQuotes (.value inQuotes name :: done) r
    | '\\' :: c :: r =>
      if inQuotes && !(c == '"' || c == '\\' || c == '$') then
        word fuel inQuotes (.text true ['\\', c] :: done) r
      else word fuel inQuotes (.text true [c] :: done) r
    | c :: r =>
      if inQuotes then word fuel true (.text true [c] :: done) r
      else if c = '\'' then
        let inside := r.takeWhile fun c => c != '\''
        word fuel false (.text true inside :: done) ((r.dropWhile fun c => c != '\'').drop 1)
      else if endsWord c then (done.reverse, c :: r)
      else word fuel false (.text false [c] :: done) r

/-- The tokens of a command line. -/
def shellTokens : Nat → List ShellToken → List Char → List ShellToken
  | 0, done, _ => done.reverse
  | fuel + 1, done, cs =>
    match cs with
    | [] => done.reverse
    | ' ' :: r => shellTokens fuel done r
    | '\t' :: r => shellTokens fuel done r
    | '\n' :: r => shellTokens fuel (.next :: done) r
    | ';' :: r => shellTokens fuel (.next :: done) r
    | '&' :: '&' :: r => shellTokens fuel (.andThen :: done) r
    | '|' :: '|' :: r => shellTokens fuel (.orElse :: done) r
    | '&' :: r => shellTokens fuel (.aside :: done) r
    | '>' :: '>' :: r => shellTokens fuel (.output 1 true :: done) r
    | '>' :: '&' :: '2' :: r => shellTokens fuel (.same 1 2 :: done) r
    | '>' :: '&' :: '1' :: r => shellTokens fuel done r
    | '2' :: '>' :: '&' :: '1' :: r => shellTokens fuel (.same 2 1 :: done) r
    | '2' :: '>' :: r => shellTokens fuel (.output 2 false :: done) r
    | '>' :: r => shellTokens fuel (.output 1 false :: done) r
    | '<' :: r => shellTokens fuel (.input :: done) r
    | '#' :: r => shellTokens fuel done (r.dropWhile fun c => c != '\n')
    | c :: r =>
      if endsWord c then shellTokens fuel done r
      else
        let (parts, r) := word (c :: r).length.succ false [] (c :: r)
        shellTokens fuel (.word parts :: done) r

/-- How a command depends on the one before it. -/
inductive Joint where
  | always
  | onSuccess
  | onFailure
  deriving DecidableEq, Repr

/-- A command, with the tokens that make it up. -/
structure Command where
  joint : Joint
  tokens : List ShellToken
  /-- It is run in the background. -/
  isAside : Bool
  deriving DecidableEq, Repr

/-- The commands of a token sequence. -/
def commands (ts : List ShellToken) : List Command :=
  let go := ts.foldl
    (fun (s : List Command × Command) t =>
      match t with
      | .andThen => (s.2 :: s.1, ⟨.onSuccess, [], false⟩)
      | .orElse => (s.2 :: s.1, ⟨.onFailure, [], false⟩)
      | .next => (s.2 :: s.1, ⟨.always, [], false⟩)
      | .aside => ({ s.2 with isAside := true } :: s.1, ⟨.always, [], false⟩)
      | t => (s.1, { s.2 with tokens := s.2.tokens ++ [t] }))
    ([], ⟨.always, [], false⟩)
  ((go.2 :: go.1).reverse).filter fun c => c.tokens != []

/-- The commands of a script. -/
def Command.ofText (s : String) : List Command :=
  commands (shellTokens s.length.succ [] s.toList)

/-! ## Running -/

/-- What a process has around it. -/
structure Surroundings where
  stage : Stage
  /-- The files, with the working directory of the process. -/
  tree : Files.Tree
  workspace : Files.Workspace
  directory : Path
  environment : Launch.Environment
  arguments : List String
  limits : Launch.Limits

/-- A script that is being run: its commands to come and its arguments. -/
structure Running where
  commands : List Command
  arguments : List String
  deriving DecidableEq, Repr

/-- A shell: the scripts that it is running, the innermost one first, its variables, and the status
of the last command. -/
structure Shell where
  scripts : List Running
  bindings : Launch.Environment
  status : Nat
  deriving DecidableEq, Repr

/-- What a command does. -/
inductive Action where
  /-- It goes on, with some output for each stream. -/
  | prints (status : Nat) (out err : List UInt8)
  /-- The script ends. -/
  | exits (status : Nat)
  /-- Another script is run. -/
  | runs (r : Running)
  /-- The process waits. -/
  | sleeps (ms : Nat)
  /-- The process sends itself a signal. -/
  | signals (n : Nat)
  /-- It takes a line and puts it into a variable. -/
  | reads (name : String)
  /-- It copies all input. -/
  | copies

/-- The value of a variable. -/
def Shell.value (sh : Shell) (name : String) : String :=
  match name with
  | "?" => Text.decimal sh.status
  | "$" => "4242"
  | "0" => "/bin/sh"
  | "#" => Text.decimal ((sh.scripts.head?.map fun r => r.arguments.length).getD 0)
  | _ =>
    match Text.word? name, sh.scripts with
    | .ok n, r :: _ => (r.arguments[n - 1]?).getD ""
    | _, _ => ((sh.bindings.find? fun e => e.1 == name).map Prod.snd).getD ""

/-- The fields that a word stands for. What a variable gives outside quotes is divided at blanks. -/
def Shell.expand (sh : Shell) (parts : List Part) : List String :=
  let go := parts.foldl
    (fun (s : List (List Char) × Option (List Char)) p =>
      match p with
      | .text _ cs => (s.1, some (s.2.getD [] ++ cs))
      | .value true name => (s.1, some (s.2.getD [] ++ (sh.value name).toList))
      | .value false name =>
        (sh.value name).toList.foldl
          (fun (s : List (List Char) × Option (List Char)) c =>
            if c = ' ' ∨ c = '\t' ∨ c = '\n' then
              match s.2 with
              | some f => (s.1 ++ [f], none)
              | none => s
            else (s.1, some (s.2.getD [] ++ [c]))) s)
    ([], none)
  (go.1 ++ go.2.toList).map String.ofList

/-- The text of a word, in one piece. -/
def Shell.joined (sh : Shell) (parts : List Part) : String := " ".intercalate (sh.expand parts)

/-- A limit as it is reported: its value in units, or that there is none. -/
def limitText (n : Option Nat) (unit : Nat) : String :=
  match n with
  | none => "unlimited"
  | some n => Text.decimal (n / unit)

/-- Output of one line. -/
def printsLine (s : String) : Action := .prints 0 (Text.utf8 (s ++ "\n")) []

/-- A complaint on the other stream. -/
def complains (status : Nat) (s : String) : Action := .prints status [] (Text.utf8 (s ++ "\n"))

/-- The content of files one after the other, or a complaint about the first that cannot be
read. -/
def readAll (t : Files.Tree) (names : List String) : Action :=
  let go := names.foldl
    (fun (s : Nat × List UInt8 × List UInt8) n =>
      match t.read (.ofText n) with
      | .ok bytes => (s.1, s.2.1 ++ bytes, s.2.2)
      | .error e => (1, s.2.1, s.2.2 ++ Text.utf8 ("cat: " ++ n ++ ": " ++ e.words ++ "\n")))
    (0, [], [])
  .prints go.1 go.2.1 go.2.2

/-- A number that is written in decimal, or another one. -/
def numberOr (default : Nat) (s : String) : Nat := (Text.word? s).toOption.getD default

/-- What a test asks for. -/
def test (t : Files.Tree) (args : List String) : Bool :=
  match args with
  | ["-e", p] => t.has (.ofText p)
  | ["-d", p] => t.isDirectory (.ofText p)
  | ["-f", p] => t.has (.ofText p) && !t.isDirectory (.ofText p)
  | ["-x", p] => t.isExecutable (.ofText p) || t.isDirectory (.ofText p)
  | ["-n", s] => s != ""
  | ["-z", s] => s == ""
  | [a, "=", b] => a == b
  | [a, "!=", b] => a != b
  | [s] => s != ""
  | _ => false

/-- What a program of the system does when it is called by this name. -/
def program (sh : Shell) (around : Surroundings) (name : String) (args : List String) :
    Option Action :=
  match name with
  | "true" | ":" => some (.prints 0 [] [])
  | "false" => some (.prints 1 [] [])
  | "echo" =>
    match args with
    | "-n" :: rest => some (.prints 0 (Text.utf8 (" ".intercalate rest)) [])
    | _ => some (printsLine (" ".intercalate args))
  | "exit" => some (.exits (numberOr sh.status (args.head?.getD "") % 256))
  | "cat" => some (if args = [] then .copies else readAll around.tree args)
  | "pwd" => some (printsLine around.directory.display)
  | "sleep" => some (.sleeps (numberOr 0 (args.head?.getD "") * 1000))
  | "read" => some (.reads ((args.filter fun a => a != "-r").head?.getD "REPLY"))
  | "env" | "printenv" =>
    some (.prints 0 (around.environment.flatMap fun e => Text.utf8 (e.1 ++ "=" ++ e.2 ++ "\n")) [])
  | "test" => some (.prints (if test around.tree args then 0 else 1) [] [])
  | "[" => some (.prints (if test around.tree args.dropLast then 0 else 1) [] [])
  | "kill" =>
    some (.signals (match args with
      | a :: _ :: _ => numberOr 15 (String.ofList (a.toList.drop 1))
      | _ => 15))
  | "ulimit" =>
    let l := around.limits
    some (printsLine (match args.getLast? with
      | some "-c" => "0"
      | some "-n" => limitText (some l.openFiles) 1
      | some "-d" => limitText l.data 1024
      | some "-u" | some "-p" => limitText l.processes 1
      | _ => limitText (some l.fileSize) 512))
  | _ => none

/-- What a command does that names this program with these arguments. -/
def Shell.act (sh : Shell) (around : Surroundings) (name : String) (args : List String) : Action :=
  let missing : Action := complains 127 ("/bin/sh: 1: " ++ name ++ ": not found")
  match program sh around name args with
  | some a => a
  | none =>
    if name.toList.contains '/' then
      match around.stage.executable around.tree (.ofText name) with
      | .error .notFound => missing
      | .error .execFormat =>
        match around.tree.readText (.ofText name) with
        | .ok s => .runs ⟨Command.ofText s, args⟩
        | .error e => complains 126 ("/bin/sh: 1: " ++ name ++ ": " ++ e.words)
      | .error e => complains 126 ("/bin/sh: 1: " ++ name ++ ": " ++ e.words)
      | .ok (.script s) => .runs ⟨Command.ofText s, args⟩
      | .ok (.interpreter _) => .prints 0 [] []
      | .ok (.program place) =>
        let base := Text.decodeLossy (place.getLast?.getD [])
        match base, args with
        | "sh", "-c" :: s :: _ => .runs ⟨Command.ofText s, []⟩
        | _, _ => (program sh around base args).getD missing
    else match name, args with
      | "sh", "-c" :: s :: _ => .runs ⟨Command.ofText s, []⟩
      | _, _ => missing

/-- The place where the output of a stream goes: another stream, or a file. -/
inductive Target where
  | stream (n : Nat)
  | file (append : Bool) (path : String)

/-- It is another stream. -/
def Target.isStream : Target → Bool
  | .stream _ => true
  | .file _ _ => false

/-- A command in parts: its words, where its two streams go, and where its input comes from. -/
structure Parsed where
  words : List String
  out : Target
  err : Target
  input : Option String

/-- The parts of a command. -/
def Shell.parse (sh : Shell) : Parsed → List ShellToken → Parsed
  | p, .output n append :: .word w :: ts =>
    let target := Target.file append (sh.joined w)
    sh.parse (if n = 2 then { p with err := target } else { p with out := target }) ts
  | p, .same 1 _ :: ts => sh.parse { p with out := p.err } ts
  | p, .same _ _ :: ts => sh.parse { p with err := p.out } ts
  | p, .input :: .word w :: ts => sh.parse { p with input := some (sh.joined w) } ts
  | p, .word w :: ts => sh.parse { p with words := p.words ++ sh.expand w } ts
  | p, _ :: ts => sh.parse p ts
  | p, [] => p

/-- The assignment that a word makes, if it is one. -/
def assignment? (w : String) : Option (String × String) :=
  let name := w.toList.takeWhile fun c => c.isAlphanum || c == '_'
  match w.toList.drop name.length with
  | '=' :: v => if name = [] then none else some (String.ofList name, String.ofList v)
  | _ => none

end SnippetRunner.Bench
