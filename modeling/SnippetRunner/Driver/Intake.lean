import SnippetRunner.Driver.Event
import SnippetRunner.Text.Blank
import SnippetRunner.Wire.Request

/-!
# How the drivers read requests

A driver reads its input as lines of text and each line as one request. The two languages do not agree
on where a line ends: the reader of JavaScript also ends one at U+2028 and at U+2029, which JSON lets
stand in a string as they are. A line that is no JSON text is passed over without an answer.
-/

namespace SnippetRunner.Driver

namespace Dialect

variable (d : Dialect)

/-! ## Lines -/

/-- A character at which the reader ends a line. -/
def isBreak (c : Char) : Bool :=
  match d with
  | .python => c == '\n' || c == '\r'
  | .javaScript => c == '\n' || c == '\r' || c == '\u2028' || c == '\u2029'

/-- The lines of some text where one has begun with the given characters, the last one first. A
carriage return and the newline after it are one end; what stands after the last end is a line too,
if there is anything. -/
def linesFrom (begun : List Char) : List Char → List String
  | [] => if begun = [] then [] else [String.ofList begun.reverse]
  | '\r' :: '\n' :: cs => String.ofList begun.reverse :: linesFrom [] cs
  | c :: cs =>
    if d.isBreak c then String.ofList begun.reverse :: linesFrom [] cs else linesFrom (c :: begun) cs

/-- The lines that the reader makes of its input. -/
def lines (bs : List UInt8) : List String := d.linesFrom [] (Text.decodeLossy bs).toList

/-! ## Requests -/

/-- A character that a line of Python loses at its ends. -/
def Python.isSpace (c : Char) : Bool := Text.isBlank c || (0x1C ≤ c.toNat && c.toNat ≤ 0x1F)

/-- The text of a line that is read as JSON. -/
def stripped (line : String) : String :=
  match d with
  | .python =>
    String.ofList (((line.toList.dropWhile Python.isSpace).reverse.dropWhile Python.isSpace).reverse)
  | .javaScript => line

end Dialect

/-- The member of an object under a name; of several the last one counts. -/
def member? (v : Json.Value) (name : String) : Option Json.Value :=
  match v with
  | .object ms => ((ms.filter fun m => m.1 == some name).getLast?).map Prod.snd
  | _ => none

/-- What a driver makes of a line. -/
inductive Taken where
  /-- The line is passed over. -/
  | nothing
  /-- Some code is executed and answered under the given number, as far as they are there. -/
  | order (id code : Option Json.Value)
  /-- The driver fails on the line and takes no other one after it. -/
  | failure

namespace Dialect

variable (d : Dialect)

/-- What a driver makes of a line. Both ask a value for its members that may have none: Python fails
on everything but an object, and JavaScript on null only. Numbers keep the form they are written in,
which is that of a double of JavaScript up to 2 ^ 53. -/
def taken (line : String) : Taken :=
  match d, Json.parse? (d.stripped line) with
  | _, none => .nothing
  | .python, some (.object ms) => .order (member? (.object ms) "id") (member? (.object ms) "code")
  | .python, some _ => .failure
  | .javaScript, some .null => .failure
  | .javaScript, some v => .order (member? v "id") (member? v "code")

end Dialect

/-- The number under which the line is answered. -/
def Taken.id : Taken → Option Json.Value
  | .order id _ => id
  | _ => none

end SnippetRunner.Driver
