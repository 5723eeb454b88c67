import SnippetRunner.Snippet.Budget

/-!
# Transcripts

What is kept of the output of one execution. Each of its two streams keeps text from the start until
it holds as many lines or bytes as the budget allows, and drops everything after the cut. A line is
a segment that a newline ends; a last segment without one counts as a line too and may still grow.
-/

namespace SnippetRunner

/-- An output stream of executed code. -/
inductive Channel where
  | stdout
  | stderr
  deriving DecidableEq, Repr

/-- The name of a stream. -/
def Channel.name : Channel → String
  | .stdout => "stdout"
  | .stderr => "stderr"

/-- The streams in their order. -/
def Channel.all : List Channel := [.stdout, .stderr]

/-- The text that one stream holds. -/
structure Held where
  text : String
  /-- The lines begun so far. -/
  lines : Nat
  /-- The last line has begun and no newline has ended it. -/
  midLine : Bool
  /-- Something was dropped, and so is everything from now on. -/
  truncated : Bool
  deriving DecidableEq, Repr

namespace Held

/-- Nothing is held. -/
def empty : Held := ⟨"", 0, false, false⟩

/-- As many of the characters as there is room for, behind a text. A character is taken whole or not
at all, and none is taken after one for which there is no room. -/
def fill (text : String) (room : Nat) : List Char → String
  | [] => text
  | c :: cs => if c.utf8Size ≤ room then fill (text.push c) (room - c.utf8Size) cs else text

/-- A line, or a part of one. The first part of a line needs room for a line. Where there is no room
for all its bytes, it is cut to whole characters, and the stream with it. -/
def writeLine (maxLines maxBytes : Nat) (h : Held) (line : List Char) : Held :=
  match h with
  | ⟨text, lines, midLine, truncated⟩ =>
    if truncated then ⟨text, lines, midLine, true⟩
    else if !midLine && maxLines ≤ lines then ⟨text, lines, midLine, true⟩
    else
      let lines := if midLine then lines else lines + 1
      let room := maxBytes - text.utf8ByteSize
      let added := String.ofList line
      if room < added.utf8ByteSize then ⟨fill text room line, lines, midLine, true⟩
      else ⟨text ++ added, lines, line.getLast? != some '\n', false⟩

/-- Some characters, line by line. Of the line at hand some may have been read already, the newest
one first. -/
def writeLines (maxLines maxBytes : Nat) (h : Held) (begun : List Char) : List Char → Held
  | [] => if begun.isEmpty then h else h.writeLine maxLines maxBytes begun.reverse
  | c :: cs =>
    if c = '\n' then
      writeLines maxLines maxBytes (h.writeLine maxLines maxBytes (c :: begun).reverse) [] cs
    else writeLines maxLines maxBytes h (c :: begun) cs

/-- A piece of output, which may hold any number of lines and parts of lines. -/
def write (maxLines maxBytes : Nat) (h : Held) (text : String) : Held :=
  h.writeLines maxLines maxBytes [] text.toList

end Held

/-- What is kept of both streams, under the limits of a budget. -/
structure Transcript where
  out : Held
  err : Held
  maxLines : Nat
  maxBytes : Nat
  deriving DecidableEq, Repr

/-- The kept texts at some moment. -/
structure Output where
  stdout : String
  stderr : String
  /-- Either stream was cut. -/
  truncated : Bool
  deriving DecidableEq, Repr

/-- No output. -/
def Output.empty : Output := ⟨"", "", false⟩

namespace Transcript

/-- An empty transcript. -/
def new (maxLines maxBytes : Nat) : Transcript := ⟨.empty, .empty, maxLines, maxBytes⟩

/-- An empty transcript under a budget. -/
def ofBudget (b : Budget) : Transcript := new b.maxLines b.maxBytes

/-- What one stream holds. -/
def held (t : Transcript) : Channel → Held
  | .stdout => t.out
  | .stderr => t.err

/-- A piece of output on one stream. -/
def write (t : Transcript) (channel : Channel) (text : String) : Transcript :=
  match t, channel with
  | ⟨out, err, maxLines, maxBytes⟩, .stdout =>
    ⟨out.write maxLines maxBytes text, err, maxLines, maxBytes⟩
  | ⟨out, err, maxLines, maxBytes⟩, .stderr =>
    ⟨out, err.write maxLines maxBytes text, maxLines, maxBytes⟩

/-- The texts held now. -/
def output (t : Transcript) : Output :=
  ⟨t.out.text, t.err.text, t.out.truncated || t.err.truncated⟩

/-- The texts held at the end, when the transcript is taken apart. -/
def close : Transcript → Output
  | ⟨⟨stdout, _, _, outCut⟩, ⟨stderr, _, _, errCut⟩, _, _⟩ => ⟨stdout, stderr, outCut || errCut⟩

end Transcript

end SnippetRunner
