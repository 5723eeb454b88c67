import SnippetRunner.Json.Decoder
import SnippetRunner.Snippet.Fault
import SnippetRunner.Snippet.Transcript

/-!
# Events

What a worker tells about itself and its executions, one JSON line each. The member `type` names the
kind of an event and may stand anywhere among the members; alternatively an event is an array that
begins with its type. Members under unknown names count for nothing, but every part of the line has
to be a value that can be kept.
-/

namespace SnippetRunner.Wire

/-- A fault as a worker reports it; nothing about it has been checked. -/
structure RawFault where
  message : String
  kind : Option String
  line : Option Int
  column : Option Int
  deriving DecidableEq, Repr

/-- A raw fault from its JSON form, of which everything may be missing. -/
def RawFault.ofJson? : Json.Decoder RawFault := fun v => do
  match ← Json.Decoder.fields ["message", "type", "line", "column"] false v with
  | [message, kind, line, column] =>
    let message ← Json.Decoder.withDefault Json.Decoder.text "" message
    let kind ← Json.Decoder.withDefault (Json.Decoder.optional Json.Decoder.text) none kind
    let line ← Json.Decoder.withDefault (Json.Decoder.optional Json.Decoder.signed) none line
    let column ← Json.Decoder.withDefault (Json.Decoder.optional Json.Decoder.signed) none column
    pure ⟨message, kind, line, column⟩
  | _ => none

/-- The fault that a worker means: with a message in any case, and without what is no kind or no
position. -/
def RawFault.fault (r : RawFault) : Fault :=
  let f := (Fault.new r.message).located r.line r.column
  match r.kind with
  | some k => f.withKind k
  | none => f

/-- An event of a worker. -/
inductive Event where
  /-- The worker takes requests. -/
  | ready (version : String)
  /-- The code of a request wrote to a stream. -/
  | output (channel : Channel) (id : Nat) (text : String)
  /-- A request is done, with a fault or without. -/
  | done (id : Nat) (fault : Option RawFault)
  deriving DecidableEq, Repr

namespace Event

/-- The event of a type, from the rest of its members or items. -/
def ofBody? (type : String) (body : Json.Value) : Option Event :=
  match type with
  | "ready" => do
    match ← Json.Decoder.fields ["version"] false body with
    | [version] => pure (.ready (← Json.Decoder.withDefault Json.Decoder.text "" version))
    | _ => none
  | "stdout" => output? .stdout
  | "stderr" => output? .stderr
  | "done" => do
    match ← Json.Decoder.fields ["id", "error"] false body with
    | [id, fault] =>
      let id ← Json.Decoder.required (Json.Decoder.word 64) id
      let fault ← Json.Decoder.withDefault (Json.Decoder.optional RawFault.ofJson?) none fault
      pure (.done id fault)
    | _ => none
  | _ => none
where
  output? (channel : Channel) : Option Event := do
    match ← Json.Decoder.fields ["id", "text"] false body with
    | [id, text] =>
      let id ← Json.Decoder.required (Json.Decoder.word 64) id
      let text ← Json.Decoder.required Json.Decoder.text text
      pure (.output channel id text)
    | _ => none

/-- An event from a JSON value. The type has to be given once. -/
def ofJson? : Json.Decoder Event
  | .object members =>
    match members.filter fun m => m.1 == some "type" with
    | [(_, .string (some type))] =>
      ofBody? type (.object (members.filter fun m => m.1 != some "type"))
    | _ => none
  | .array (.string (some type) :: items) => ofBody? type (.array items)
  | _ => none

/-- The event that a line carries, if it carries one. -/
def decode? (line : String) : Option Event := (Json.parseKept? line).bind ofJson?

end Event

end SnippetRunner.Wire
