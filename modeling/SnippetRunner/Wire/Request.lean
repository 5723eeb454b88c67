import SnippetRunner.Json.Document

/-!
# Requests

A worker takes requests one line each: a JSON object with a number that names the request and the
code to execute.
-/

namespace SnippetRunner.Wire

/-- A request to execute some code. -/
structure Request where
  id : Nat
  code : String
  deriving DecidableEq, Repr

/-- The JSON form. -/
def Request.toJson (r : Request) : Json.Value :=
  .record [("id", .nat r.id), ("code", .text r.code)]

/-- The line that carries a request, with its newline. -/
def Request.line (r : Request) : String := r.toJson.write ++ "\n"

end SnippetRunner.Wire
