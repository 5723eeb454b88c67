import SnippetRunner.Worker.Incoming

/-!
# Lines out of chunks

The bytes of a worker arrive in chunks that have nothing to do with its lines. What has arrived waits in
a buffer, and a splitter is asked for the next line in it; between two answers the splitter may remember
how far it has looked. The reader of lines asks after every chunk until there is no further line, and so
it does once more when the pipe has ended. What it relies on is written down as laws for splitters. One
of them looks at no more bytes than a line may have, and at none of them twice.
-/

namespace SnippetRunner.Worker

/-- The text of a line, without the carriage return at its end. -/
def lineText? (line : List UInt8) : Option String :=
  Text.decode? (EventReader.dropReturn line.reverse).reverse

/-- What a splitter finds in the bytes that wait. -/
inductive Found (σ : Type) (buffer : List UInt8) where
  /-- The text of a line, and the bytes behind it. -/
  | line (text : String) (state : σ) (rest : List UInt8) (shorter : rest.length < buffer.length)
  /-- No line, as things are. -/
  | nothing (state : σ)
  | failure (halt : Halt)

/-- A splitter with a state of some type. -/
structure Splitter (σ : Type) where
  start : σ
  /-- The next line, where more bytes may arrive. -/
  next : σ → (buffer : List UInt8) → Found σ buffer
  /-- The next line, where no more bytes arrive. -/
  last : σ → (buffer : List UInt8) → Found σ buffer

namespace Splitter

variable {σ : Type}

/-- A line has been found with some bytes behind it, none of which has been looked at; but if the line
is no text, that has been found. -/
def Gives (searched : σ → List UInt8 → Prop) {buffer : List UInt8} (line rest : List UInt8)
    (found : Found σ buffer) : Prop :=
  match lineText? line with
  | some text => ∃ state shorter, found = .line text state rest shorter ∧ searched state []
  | none => found = .failure .unreadable

/-- What is relied on. In a state the splitter may have searched the front of the buffer already, as it
has after it has found no line there. A line ends at the first newline, and may be as long as a line may
be. Without a newline the splitter waits, unless the line is too long already. At the end, with no
newline left, all that waits is a line, unless it is nothing or a carriage return alone. -/
structure Lawful (x : Splitter σ) (searched : σ → List UInt8 → Prop) : Prop where
  start : searched x.start []
  line {s : σ} {front line rest : List UInt8} : searched s front → front <+: line ++ 0x0A :: rest →
    0x0A ∉ line → line.length ≤ maxLine → Gives searched line rest (x.next s (line ++ 0x0A :: rest))
  oversized {s : σ} {front line rest : List UInt8} : searched s front → front <+: line ++ rest →
    0x0A ∉ line → maxLine < line.length → x.next s (line ++ rest) = .failure .oversized
  waiting {s : σ} {front buffer : List UInt8} : searched s front → front <+: buffer →
    0x0A ∉ buffer → buffer.length ≤ maxLine → ∃ s', x.next s buffer = .nothing s' ∧ searched s' buffer
  ended {s : σ} {front buffer : List UInt8} : searched s front → front <+: buffer →
    buffer = [] ∨ buffer = [0x0D] → ∃ s', x.last s buffer = .nothing s'
  unended {s : σ} {front buffer : List UInt8} : searched s front → front <+: buffer →
    0x0A ∉ buffer → buffer.length ≤ maxLine → ¬(buffer = [] ∨ buffer = [0x0D]) →
      Gives searched buffer [] (x.last s buffer)

/-! ## The search from an offset -/

/-- Where the next newline stands, if it stands where a line may end. The bytes before the offset are
not looked at. -/
def newline? (offset : Nat) (buffer : List UInt8) : Option Nat :=
  (((buffer.take (maxLine + 1)).drop offset).findIdx? (· == 0x0A)).map (offset + ·)

theorem lt_of_newline? {offset i : Nat} {buffer : List UInt8} (found : newline? offset buffer = some i) :
    i < buffer.length := by
  obtain ⟨j, at_, rfl⟩ := Option.map_eq_some_iff.1 found
  obtain ⟨inside, -⟩ := List.findIdx?_eq_some_iff_getElem.1 at_
  rw [List.length_drop, List.length_take] at inside
  omega

/-- What has been found with a line: the search of the bytes behind it begins at their front. -/
def found {buffer : List UInt8} (line rest : List UInt8) (shorter : rest.length < buffer.length) :
    Found Nat buffer :=
  match lineText? line with
  | some text => .line text 0 rest shorter
  | none => .failure .unreadable

/-- The next line of some bytes whose front has been searched. -/
def search (offset : Nat) (buffer : List UInt8) : Found Nat buffer :=
  match at_ : newline? offset buffer with
  | some i => found (buffer.take i) (buffer.drop (i + 1)) <| by
      have := lt_of_newline? at_
      rw [List.length_drop]
      omega
  | none =>
    if maxLine < buffer.length then .failure .oversized
    else .nothing (min (maxLine + 1) buffer.length)

/-- The next line of the last bytes. -/
def searchLast (offset : Nat) (buffer : List UInt8) : Found Nat buffer :=
  match search offset buffer with
  | .nothing _ =>
    if rest : buffer = [] ∨ buffer = [0x0D] then .nothing 0
    else found buffer [] (List.length_pos_iff.2 fun none => rest (.inl none))
  | found => found

/-- The splitter whose state is the number of bytes that it has searched. -/
def searching : Splitter Nat := ⟨0, search, searchLast⟩

end Splitter

/-! ## The reader -/

/-- The reader of lines. -/
structure LineReader (σ : Type) where
  state : σ
  /-- The bytes that have arrived and are no part of a line yet. -/
  buffer : List UInt8
  halt : Option Halt
  /-- The events that have been read, the last one first. -/
  events : List Wire.Event

namespace LineReader

variable {σ : Type}

/-- The event of a line, if it carries one, after those before it. -/
def note (events : List Wire.Event) (text : String) : List Wire.Event :=
  if Text.allBlank text then events
  else match Wire.Event.decode? text with
    | none => events
    | some e => e :: events

/-- Takes lines from some bytes until there is none, or until there is no going on. -/
def drain (ask : σ → (buffer : List UInt8) → Found σ buffer) (state : σ) (buffer : List UInt8)
    (events : List Wire.Event) : LineReader σ :=
  match ask state buffer with
  | .line text state rest _ => drain ask state rest (note events text)
  | .nothing state => ⟨state, buffer, none, events⟩
  | .failure halt => ⟨state, buffer, some halt, events⟩
termination_by buffer.length

/-- Nothing has arrived. -/
def start (x : Splitter σ) : LineReader σ := ⟨x.start, [], none, []⟩

/-- A chunk of bytes arrives. -/
def arrive (x : Splitter σ) (r : LineReader σ) (chunk : List UInt8) : LineReader σ :=
  if r.halt.isSome then r else drain x.next r.state (r.buffer ++ chunk) r.events

/-- Some chunks arrive, one after the other. -/
def run (x : Splitter σ) (chunks : List (List UInt8)) : LineReader σ := chunks.foldl (arrive x) (start x)

/-- The pipe has ended. -/
def finish (x : Splitter σ) (r : LineReader σ) : LineReader σ :=
  if r.halt.isSome then r else drain x.last r.state r.buffer r.events

end LineReader

/-- What comes of reading: the events, in order, and whether the worker is killed. -/
structure Outcome where
  events : List Wire.Event
  killed : Bool
  deriving DecidableEq, Repr

def LineReader.outcome {σ : Type} (r : LineReader σ) : Outcome :=
  ⟨r.events.reverse, r.halt = some .oversized⟩

def EventReader.outcome (r : EventReader) : Outcome := ⟨r.events.reverse, r.halt = some .oversized⟩

end SnippetRunner.Worker
