import SnippetRunner.Json.Document
import SnippetRunner.Text.Utf8

/-!
# Scripts for workers

What a rehearsed worker does, step by step: at its start, and for each request it gets.
-/

namespace SnippetRunner.Bench

/-- Something that a worker can report about its surroundings. -/
inductive Topic where
  | environment
  | arguments
  | directory
  | group
  | files
  | writing
  /-- A limit, by its name. -/
  | limit (name : String)
  deriving DecidableEq, Repr

/-- A step of a script. -/
inductive Step where
  /-- The event that the worker is ready. -/
  | ready (version : Json.Value)
  /-- The event of some output. -/
  | stdout (text : String)
  /-- The event that the request is done. -/
  | done (fault : Json.Value)
  /-- The event that gives the code of the request back, as output of a stream. -/
  | echo (stream : String)
  /-- The event that gives the whole request back, as output. -/
  | request
  /-- Bytes and a newline, to the pipe for events. -/
  | line (bytes : List UInt8)
  /-- Bytes to the pipe for events. -/
  | raw (bytes : List UInt8)
  /-- The event of so much output that its line has this many bytes. -/
  | big (size : Nat)
  /-- Bytes to the other pipe. -/
  | stderr (bytes : List UInt8)
  | sleep (ms : Nat)
  | hang
  /-- Both pipes are closed, and the worker hangs. -/
  | close
  | exit (code : Nat)
  /-- The worker sends itself a signal. -/
  | signal (n : Nat)
  /-- A line is read and written in quotes. -/
  | stdin
  | report (topics : List Topic)
  deriving Repr

/-- A script. -/
structure Script where
  start : List Step
  /-- The steps for the first request, the second one, and so on. -/
  requests : List (List Step)
  /-- The steps for every request after those. -/
  after : List Step
  deriving Repr

/-- The event with these members, on a line of its own. -/
def eventLine (members : List (String × Json.Value)) : List UInt8 :=
  Text.utf8 ((Json.Value.record members).write ++ "\n")

/-- The event of some output of a stream. -/
def outputLine (id : Nat) (stream text : String) : List UInt8 :=
  eventLine [("id", .nat id), ("text", .text text), ("type", .text stream)]

/-- The event that a request is done. -/
def doneLine (id : Nat) (fault : Json.Value) : List UInt8 :=
  eventLine [("error", fault), ("id", .nat id), ("type", .text "done")]

/-- The event of output that makes its line this long, the newline apart. -/
def bigLine (id size : Nat) : List UInt8 :=
  let empty := (outputLine id "stdout" "").length - 1
  outputLine id "stdout" (String.ofList (List.replicate (size - empty) 'x'))

end SnippetRunner.Bench
