import SnippetRunner.Proofs.Text.Utf8
import SnippetRunner.Worker.Incoming

/-!
# Raw text in chunks

The reader of the other pipe passes on text chunk by chunk. Bytes that are no text count as the chunks
cut them: a character that stands unfinished at the end of a chunk is held back, unless something
before it in what is read at once is malformed. The texts that are passed on are the text of all bytes
together exactly where no character is torn in this way, and then whatever the chunks are; in
particular bytes that are text never suffer.
-/

namespace SnippetRunner.Worker.TextReader

open SnippetRunner.Text (Tears takeText decode? decodeLossy)

/-- The texts that are passed on when bytes arrive in these chunks and the pipe ends then. -/
def passed (r : TextReader) : List (List UInt8) → List String
  | [] => r.close.1.toList
  | chunk :: later => (r.feed chunk).1.toList ++ (r.feed chunk).2.passed later

/-- A chunk ends inside a character that the next chunks continue, and something is malformed in the
bytes that are read with it. -/
def Torn (r : TextReader) : List (List UInt8) → Prop
  | [] => False
  | chunk :: later => Tears (r.pending ++ chunk) later.flatten ∨ (r.feed chunk).2.Torn later

variable {r : TextReader} {chunk : List UInt8} {chunks later : List (List UInt8)}

/-- The end of the pipe passes on what the kept bytes amount to. -/
theorem join_close (r : TextReader) : String.join r.close.1.toList = decodeLossy r.pending := by
  unfold close
  by_cases empty : r.pending = []
  · rw [empty]
    rfl
  · simp only [if_neg empty]
    rw [Option.toList_some, String.join_cons, String.join_nil, String.append_empty]

/-- A chunk passes on what can be read of it. -/
theorem join_feed (r : TextReader) (chunk : List UInt8) :
    String.join (r.feed chunk).1.toList = (takeText (r.pending ++ chunk)).1 := by
  show String.join (if (takeText (r.pending ++ chunk)).1 = "" then none
    else some (takeText (r.pending ++ chunk)).1).toList = _
  by_cases empty : (takeText (r.pending ++ chunk)).1 = ""
  · rw [if_pos empty, empty]
    rfl
  · rw [if_neg empty, Option.toList_some, String.join_cons, String.join_nil, String.append_empty]

/-- One chunk more. -/
theorem join_passed_cons (r : TextReader) (chunk : List UInt8) (later : List (List UInt8)) :
    String.join (r.passed (chunk :: later)) =
      (takeText (r.pending ++ chunk)).1 ++ String.join ((r.feed chunk).2.passed later) := by
  show String.join (_ ++ _) = _
  rw [String.join_append, join_feed]

/-- The chunks never make the text shorter. -/
theorem length_decodeLossy_le (r : TextReader) (chunks : List (List UInt8)) :
    (decodeLossy (r.pending ++ chunks.flatten)).length ≤ (String.join (r.passed chunks)).length := by
  induction chunks generalizing r with
  | nil =>
    have whole : String.join (r.passed []) = decodeLossy r.pending := join_close r
    refine Nat.le_of_eq ?_
    rw [whole, List.flatten_nil, List.append_nil]
  | cons chunk later ih =>
    have after : (decodeLossy ((takeText (r.pending ++ chunk)).2 ++ later.flatten)).length ≤
        (String.join ((r.feed chunk).2.passed later)).length := ih (r.feed chunk).2
    have whole : (decodeLossy ((r.pending ++ chunk) ++ later.flatten)).length ≤
        ((takeText (r.pending ++ chunk)).1 ++
          decodeLossy ((takeText (r.pending ++ chunk)).2 ++ later.flatten)).length := by
      by_cases torn : Tears (r.pending ++ chunk) later.flatten
      · exact Nat.le_of_lt (Text.length_takeText_of_tears torn)
      · refine Nat.le_of_eq ?_
        rw [Text.takeText_of_not_tears torn]
    rw [String.length_append] at whole
    rw [join_passed_cons, List.flatten_cons, ← List.append_assoc, String.length_append]
    omega

/-- Where no character is torn, the texts are the text of all bytes together. -/
theorem join_passed_of_not_torn (whole : ¬r.Torn chunks) :
    String.join (r.passed chunks) = decodeLossy (r.pending ++ chunks.flatten) := by
  induction chunks generalizing r with
  | nil =>
    show String.join r.close.1.toList = _
    rw [join_close, List.flatten_nil, List.append_nil]
  | cons chunk later ih =>
    have here : ¬Tears (r.pending ++ chunk) later.flatten := fun torn => whole (.inl torn)
    have after : String.join ((r.feed chunk).2.passed later) =
        decodeLossy ((takeText (r.pending ++ chunk)).2 ++ later.flatten) :=
      ih fun torn => whole (.inr torn)
    rw [join_passed_cons, after, Text.takeText_of_not_tears here, List.flatten_cons,
      List.append_assoc]

/-- Where a character is torn, they are longer. -/
theorem length_lt_of_torn (torn : r.Torn chunks) :
    (decodeLossy (r.pending ++ chunks.flatten)).length < (String.join (r.passed chunks)).length := by
  induction chunks generalizing r with
  | nil => exact torn.elim
  | cons chunk later ih =>
    rw [join_passed_cons, List.flatten_cons, ← List.append_assoc, String.length_append]
    -- what comes later may be torn as well, but it never makes up for a longer text
    by_cases here : Tears (r.pending ++ chunk) later.flatten
    · have longer := Text.length_takeText_of_tears here
      have after : (decodeLossy ((takeText (r.pending ++ chunk)).2 ++ later.flatten)).length ≤
          (String.join ((r.feed chunk).2.passed later)).length :=
        length_decodeLossy_le (r.feed chunk).2 later
      rw [String.length_append] at longer
      omega
    · have tornLater : (r.feed chunk).2.Torn later := Or.resolve_left torn here
      have after : (decodeLossy ((takeText (r.pending ++ chunk)).2 ++ later.flatten)).length <
          (String.join ((r.feed chunk).2.passed later)).length :=
        ih (r := (r.feed chunk).2) tornLater
      rw [← Text.takeText_of_not_tears here, String.length_append]
      omega

/-- Bytes that are text are torn by no chunks. -/
theorem not_torn_of_wellFormed
    (h : (Text.Decoding.ofBytes (r.pending ++ chunks.flatten)).wellFormed = true) :
    ¬r.Torn chunks := by
  induction chunks generalizing r with
  | nil => exact id
  | cons chunk later ih =>
    rw [List.flatten_cons, ← List.append_assoc] at h
    obtain ⟨front, back⟩ := Text.wellFormed_append (r.pending ++ chunk) later.flatten h
    rintro (⟨malformed, -⟩ | torn)
    · rw [front] at malformed
      cases malformed
    · exact ih (r := (r.feed chunk).2) back torn

/-- The texts that are passed on are the text of all bytes together if and only if no chunk ends inside
a character that the next chunks continue while something is malformed in the bytes that are read with
it; a text always arrives as it was written. -/
theorem join_passed_start (chunks : List (List UInt8)) :
    (String.join (start.passed chunks) = decodeLossy chunks.flatten ↔ ¬start.Torn chunks) ∧
      ∀ s, decode? chunks.flatten = some s → String.join (start.passed chunks) = s := by
  refine ⟨⟨fun same torn => ?_, fun whole => join_passed_of_not_torn whole⟩, fun s text => ?_⟩
  · have longer := length_lt_of_torn torn
    rw [same] at longer
    exact Nat.lt_irrefl _ longer
  · obtain ⟨wellFormed, finished, rfl⟩ := Text.decode?_eq_some_iff.1 text
    have whole : ¬start.Torn chunks := not_torn_of_wellFormed (r := start) wellFormed
    rw [join_passed_of_not_torn whole]
    exact Text.Decoding.finish_of_none finished

/-- A malformed byte before a character that two chunks share. -/
example : String.join (start.passed [[0xFF, 0xC3], [0xB1]]) = "\uFFFD\uFFFD\uFFFD" := by decide

end SnippetRunner.Worker.TextReader
