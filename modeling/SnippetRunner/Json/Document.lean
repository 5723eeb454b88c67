import SnippetRunner.Json.Token

/-!
# From tokens to values and back

Reading a value from its tokens keeps the open arrays and objects on a stack, so that the nesting of
a text costs no recursion. Writing a value lists its tokens in order.
-/

namespace SnippetRunner.Json

/-- An array or object that waits for one of its values; its parts stand last one first. -/
inductive Frame where
  | items (done : List Value)
  | members (done : List (Option String × Value)) (key : Option String)

/-- What the reader has and which token it can take. -/
inductive Reading where
  /-- A value comes next. -/
  | value (outer : List Frame)
  /-- The first item of an array comes next, or its end. -/
  | opened (outer : List Frame)
  /-- The first key of an object comes next, or its end. -/
  | openedObject (outer : List Frame)
  /-- A key comes next. -/
  | key (done : List (Option String × Value)) (outer : List Frame)
  /-- The colon after a key comes next. -/
  | colon (done : List (Option String × Value)) (key : Option String) (outer : List Frame)
  /-- A comma or the end of an array comes next. -/
  | afterItem (done : List Value) (outer : List Frame)
  /-- A comma or the end of an object comes next. -/
  | afterMember (done : List (Option String × Value)) (outer : List Frame)
  /-- The value is complete. -/
  | whole (v : Value)

namespace Reading

/-- A complete value takes its place in the innermost open array or object. -/
def place (v : Value) : List Frame → Reading
  | [] => .whole v
  | .items done :: outer => .afterItem (v :: done) outer
  | .members done k :: outer => .afterMember ((k, v) :: done) outer

/-- A token that begins a value. -/
def begin (t : Token) (outer : List Frame) : Option Reading :=
  match t with
  | .null => some (place .null outer)
  | .bool b => some (place (.bool b) outer)
  | .number n => some (place (.number n) outer)
  | .string s => some (place (.string s) outer)
  | .openArray => some (.opened outer)
  | .openObject => some (.openedObject outer)
  | _ => none

/-- One token more, or a refusal where it cannot stand. -/
def push (r : Reading) (t : Token) : Option Reading :=
  match r, t with
  | .value outer, t => begin t outer
  | .opened outer, .closeArray => some (place (.array []) outer)
  | .opened outer, t => begin t (.items [] :: outer)
  | .openedObject outer, .closeObject => some (place (.object []) outer)
  | .openedObject outer, .string k => some (.colon [] k outer)
  | .key done outer, .string k => some (.colon done k outer)
  | .colon done k outer, .colon => some (.value (.members done k :: outer))
  | .afterItem done outer, .comma => some (.value (.items done :: outer))
  | .afterItem done outer, .closeArray => some (place (.array done.reverse) outer)
  | .afterMember done outer, .comma => some (.key done outer)
  | .afterMember done outer, .closeObject => some (place (.object done.reverse) outer)
  | _, _ => none

/-- The value, if it is complete. -/
def value? : Reading → Option Value
  | .whole v => some v
  | _ => none

end Reading

/-- The value that a token sequence writes. -/
def Value.ofTokens? (ts : List Token) : Option Value :=
  (ts.foldlM Reading.push (.value [])).bind Reading.value?

/-- The value of a JSON text. -/
def parse? (s : String) : Option Value :=
  (tokens? s).bind Value.ofTokens?

/-- How many arrays and objects may be open at once in a value that is kept whole. -/
def maxNesting : Nat := 127

/-- The value of a JSON text all of whose parts can be kept: no string without a text, no number
out of range, no nesting beyond the limit. -/
def parseKept? (s : String) : Option Value := do
  let ts ← tokens? s
  guard (nesting ts ≤ maxNesting && ts.all Token.kept)
  Value.ofTokens? ts

mutual

/-- The tokens of a value, in order. -/
def Value.tokens : Value → List Token
  | .null => [.null]
  | .bool b => [.bool b]
  | .number n => [.number n]
  | .string s => [.string s]
  | .array items => .openArray :: itemTokens items ++ [.closeArray]
  | .object members => .openObject :: memberTokens members ++ [.closeObject]

/-- The tokens of the items of an array, with commas between them. -/
def itemTokens : List Value → List Token
  | [] => []
  | [v] => v.tokens
  | v :: w :: vs => v.tokens ++ .comma :: itemTokens (w :: vs)

/-- The tokens of the members of an object, with commas between them. -/
def memberTokens : List (Option String × Value) → List Token
  | [] => []
  | [(k, v)] => .string k :: .colon :: v.tokens
  | (k, v) :: m :: ms => .string k :: .colon :: v.tokens ++ .comma :: memberTokens (m :: ms)

end

/-- The text of a value, without any space. -/
def Value.write (v : Value) : String := writeTokens v.tokens

end SnippetRunner.Json
