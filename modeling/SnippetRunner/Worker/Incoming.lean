import SnippetRunner.Text.Blank
import SnippetRunner.Text.Utf8
import SnippetRunner.Wire.Event

/-!
# What arrives from a worker

A worker writes events to one pipe, a line each, and whatever it likes to the other. Two readers
turn the bytes into messages. The reader of events takes one byte at a time, so it does not matter
in which pieces the bytes arrive; it skips lines that carry no event, and stops for good at a line
that is too long or no text. The reader of the other pipe passes text on as it arrives.
-/

namespace SnippetRunner.Worker

/-- A message from a worker. -/
inductive Message where
  | event (e : Wire.Event)
  /-- Text that was written to the other pipe. -/
  | stderr (text : String)
  deriving DecidableEq, Repr

/-! ## Events -/

/-- How many bytes a line may have. -/
def maxLine : Nat := 1024 * 1024

/-- Why the reader of events stopped before the end. -/
inductive Halt where
  /-- A line was too long; the worker is killed for it. -/
  | oversized
  /-- A line was no text. -/
  | unreadable
  deriving DecidableEq, Repr

/-- The reader of events. -/
structure EventReader where
  /-- The bytes of the line that has not ended yet, the last one first. -/
  line : List UInt8
  /-- The number of these bytes. -/
  size : Nat
  halt : Option Halt
  /-- The events read and not yet taken, the last one first. -/
  events : List Wire.Event
  deriving DecidableEq, Repr

namespace EventReader

/-- Nothing has been read. -/
def start : EventReader := ⟨[], 0, none, []⟩

/-- A line without the carriage return at its end; the last byte stands first. -/
def dropReturn (line : List UInt8) : List UInt8 :=
  match line with
  | 0x0D :: r => r
  | r => r

/-- The end of a line: it is an event, or nothing, or no text. -/
def endLine (r : EventReader) : EventReader :=
  match Text.decode? (dropReturn r.line).reverse with
  | none => ⟨[], 0, some .unreadable, r.events⟩
  | some s =>
    if Text.allBlank s then ⟨[], 0, none, r.events⟩
    else match Wire.Event.decode? s with
      | none => ⟨[], 0, none, r.events⟩
      | some e => ⟨[], 0, none, e :: r.events⟩

/-- One byte more. -/
def push (r : EventReader) (b : UInt8) : EventReader :=
  match r with
  | ⟨line, size, halt, events⟩ =>
    if halt.isSome then ⟨line, size, halt, events⟩
    else if b = 0x0A then endLine ⟨line, size, halt, events⟩
    else if maxLine ≤ size then ⟨[], 0, some .oversized, events⟩
    else ⟨b :: line, size + 1, halt, events⟩

/-- Some bytes more. -/
def feed (r : EventReader) (bs : List UInt8) : EventReader := bs.foldl push r

/-- The end of the pipe. What stands after the last newline is a line too, unless it is nothing or
a carriage return alone. -/
def close (r : EventReader) : EventReader :=
  if r.halt.isSome ∨ r.line = [] ∨ r.line = [0x0D] then { r with line := [], size := 0 }
  else r.endLine

/-- The events read, in order, and the reader without them. -/
def take (r : EventReader) : List Wire.Event × EventReader :=
  (r.events.reverse, { r with events := [] })

end EventReader

/-! ## The other pipe -/

/-- How many bytes the buffer holds into which the other pipe is read. -/
def bufferSize : Nat := 8192

/-- The chunks in which bytes arrive where so many have arrived before: the buffer is filled to its
end, and the next chunk begins at its front again. -/
def chunks (arrived : Nat) (bs : List UInt8) : List (List UInt8) :=
  if bs = [] then []
  else
    let room := bufferSize - arrived % bufferSize
    bs.take room :: chunks (arrived + room) (bs.drop room)
termination_by bs.length
decreasing_by
  have : 0 < bs.length := List.length_pos_iff.2 ‹_›
  have : arrived % bufferSize < bufferSize := Nat.mod_lt _ (by decide)
  simp only [List.length_drop]
  omega

/-- The reader of the other pipe, by the bytes that wait for the rest of a character. -/
structure TextReader where
  pending : List UInt8
  deriving DecidableEq, Repr

namespace TextReader

/-- Nothing has been read. -/
def start : TextReader := ⟨[]⟩

/-- A chunk of bytes arrives: the text to pass on, if there is any. -/
def feed (r : TextReader) (chunk : List UInt8) : Option String × TextReader :=
  let (text, pending) := Text.takeText (r.pending ++ chunk)
  (if text = "" then none else some text, ⟨pending⟩)

/-- The end of the pipe: what is left to pass on. -/
def close (r : TextReader) : Option String × TextReader :=
  (if r.pending = [] then none else some (Text.decodeLossy r.pending), ⟨[]⟩)

end TextReader

end SnippetRunner.Worker
