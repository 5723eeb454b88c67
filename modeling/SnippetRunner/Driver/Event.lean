import SnippetRunner.Driver.Text
import SnippetRunner.Json.Document
import SnippetRunner.Snippet.Transcript
import SnippetRunner.Text.Utf8

/-!
# Lines of the drivers

A driver sends an event as one line of JSON, in the manner of its language. An output event carries a
piece of what the code of a request has written; the event that a request is done carries a report on
the exception that has ended it, if one has.
-/

namespace SnippetRunner.Driver

/-- The language of a driver. -/
inductive Dialect where
  | python
  /-- Its numbers are doubles, which are exact up to 2 ^ 53; here they are taken to be exact throughout.
  The only numbers that a driver hands on are those of requests, which a host counts from one on for
  each worker. -/
  | javaScript
  deriving DecidableEq, Repr

namespace Dialect

/-- The strings of the language. -/
abbrev Str : Dialect → Type
  | .python => Python.Str
  | .javaScript => JavaScript.Str

/-- The UTF-16 units of a string. -/
def units : (d : Dialect) → d.Str → List UInt16
  | .python => Python.units
  | .javaScript => id

/-- The string of a text. -/
def ofString : (d : Dialect) → String → d.Str
  | .python => Python.ofString
  | .javaScript => Text.utf16

/-- A written string. -/
def quote : (d : Dialect) → d.Str → List Char
  | .python => Python.quote
  | .javaScript => JavaScript.quote

/-- What stands after a comma and after a colon. -/
def gap : Dialect → List Char
  | .python => [' ']
  | .javaScript => []

/-- The strings of the events for some output. -/
def pieces : (d : Dialect) → d.Str → List d.Str
  | .python => Python.pieces
  | .javaScript => JavaScript.pieces

end Dialect

/-! ## Values -/

/-- A value with strings of some kind. Members of an object stand in the order in which they are
written. -/
inductive Datum (σ : Type) where
  | null
  | number (i : Int)
  | string (s : σ)
  | object (members : List (String × Datum σ))

namespace Datum

variable {d : Dialect}

mutual

/-- The written form of a value. -/
def chars : Datum d.Str → List Char
  | .null => Json.Token.null.chars
  | .number i => (Json.Token.number (.ofInt i)).chars
  | .string s => d.quote s
  | .object ms => '\x7b' :: memberChars ms ++ ['\x7d']

/-- The written members of an object. -/
def memberChars : List (String × Datum d.Str) → List Char
  | [] => []
  | [(k, v)] => d.quote (d.ofString k) ++ ':' :: d.gap ++ v.chars
  | (k, v) :: m :: ms =>
    d.quote (d.ofString k) ++ ':' :: d.gap ++ v.chars ++ ',' :: d.gap ++ memberChars (m :: ms)

end

end Datum

/-! ## Events -/

/-- What a driver reports about an exception. The position is left out altogether where there is
none to look for. -/
structure Report (σ : Type) where
  message : σ
  kind : Option σ
  position : Option (Option Int × Option Int)

namespace Report

/-- A value, or null in its absence. -/
def optional {α σ : Type} (f : α → Datum σ) : Option α → Datum σ
  | none => .null
  | some a => f a

/-- The members that give the position. -/
def positionMembers {σ : Type} : Option (Option Int × Option Int) → List (String × Datum σ)
  | none => []
  | some (line, column) => [("line", optional .number line), ("column", optional .number column)]

/-- The report as a value. -/
def datum {σ : Type} (r : Report σ) : Datum σ :=
  .object ([("message", .string r.message), ("type", optional .string r.kind)] ++
    positionMembers r.position)

end Report

namespace Python

/-- How some code has ended by an exception. -/
inductive Raised where
  /-- It has asked to exit with a code other than zero, which prints so. -/
  | exit (code : Str)
  /-- Any other exception, by its text, the name of its type and where it was raised. -/
  | error (text name : Str) (line column : Option Int)

/-- The report on an exception. -/
def describe : Raised → Report Str
  | .exit code => ⟨ofString "exit status " ++ code, some (ofString "SystemExit"), none⟩
  | .error text name line column => ⟨if text = [] then name else text, some name, some (line, column)⟩

end Python

namespace JavaScript

/-- What some code has thrown. -/
inductive Thrown where
  /-- An error, by its message, its name and where it was thrown. -/
  | error (message name : Str) (line column : Option Int)
  /-- Any other value, by how it is shown. -/
  | other (shown : Str)

/-- The report on a thrown value. -/
def describe : Thrown → Report Str
  | .error message name line column =>
    ⟨if message = [] then name else message, if name = [] then none else some name,
      some (line, column)⟩
  | .other shown => ⟨shown, none, some (none, none)⟩

end JavaScript

namespace Dialect

variable (d : Dialect)

/-- The event for a piece of output. -/
def output (c : Channel) (id : UInt64) (piece : d.Str) : Datum d.Str :=
  .object [("type", .string (d.ofString c.name)), ("id", .number id.toNat), ("text", .string piece)]

/-- The events for some output. Where no request is executed it goes nowhere. -/
def outputs (c : Channel) (current : Option UInt64) (text : d.Str) : List (Datum d.Str) :=
  match current with
  | none => []
  | some id => (d.pieces text).map (d.output c id)

/-- The event that a request is done. -/
def done (id : UInt64) (report : Option (Report d.Str)) : Datum d.Str :=
  .object [("type", .string (d.ofString "done")), ("id", .number id.toNat),
    ("error", Report.optional Report.datum report)]

/-- The line of an event, without its newline. -/
def line (event : Datum d.Str) : String := String.ofList event.chars

/-- The bytes that are sent for an event. -/
def sent (event : Datum d.Str) : List UInt8 := Text.utf8 (d.line event) ++ [0x0A]

end Dialect

end SnippetRunner.Driver
