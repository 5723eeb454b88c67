import SnippetRunner.Proofs.Text.CutShort
import SnippetRunner.Proofs.Worker.Chunks

/-!
# Bytes that wait

Between two chunks the reader of the other pipe keeps what is there of a character that the first one
cuts short, which is three bytes at most, however much arrives. All other bytes it has read: a range of
them with each chunk, one behind the other, and each passed on as the text of that range.
-/

namespace SnippetRunner.Worker.TextReader

open SnippetRunner.Text (IsCutShort Parted decodeLossy)

/-- The reader when some chunks have arrived. -/
def after (r : TextReader) (chunks : List (List UInt8)) : TextReader :=
  chunks.foldl (fun r chunk => (r.feed chunk).2) r

/-- The bytes that are read when a chunk arrives: of those that waited and the chunk, all but those
that wait then. -/
def range (r : TextReader) (chunk : List UInt8) : List UInt8 :=
  (r.pending ++ chunk).take ((r.pending ++ chunk).length - (r.feed chunk).2.pending.length)

/-- The ranges that are read, chunk by chunk. -/
def ranges (r : TextReader) : List (List UInt8) → List (List UInt8)
  | [] => []
  | chunk :: later => r.range chunk :: (r.feed chunk).2.ranges later

/-- The texts of some ranges, without those of empty ones. -/
def texts (ranges : List (List UInt8)) : List String :=
  (ranges.filter fun range => !range.isEmpty).map decodeLossy

variable {r : TextReader} {chunk : List UInt8} {chunks : List (List UInt8)}

/-! ## One chunk -/

/-- A chunk parts the bytes into those that are read and those that wait. -/
theorem parted_feed (r : TextReader) (chunk : List UInt8) :
    Parted (r.pending ++ chunk) (r.range chunk) (r.feed chunk).2.pending := by
  obtain ⟨read, kept, parted⟩ := Text.exists_parted (r.pending ++ chunk)
  have waits : (r.feed chunk).2.pending = kept := congrArg Prod.snd (Text.takeText_of_parted parted)
  have range : r.range chunk = read := by
    unfold TextReader.range
    rw [waits, ← parted.append, List.length_append, Nat.add_sub_cancel]
    exact List.take_left
  rw [range, waits]
  exact parted

/-- A chunk passes on the text of the range that is read. -/
theorem toList_feed (r : TextReader) (chunk : List UInt8) :
    (r.feed chunk).1.toList = texts [r.range chunk] := by
  have text : (Text.takeText (r.pending ++ chunk)).1 = decodeLossy (r.range chunk) :=
    congrArg Prod.fst (Text.takeText_of_parted (parted_feed r chunk))
  show (if (Text.takeText (r.pending ++ chunk)).1 = "" then none
    else some (Text.takeText (r.pending ++ chunk)).1).toList = _
  unfold texts
  rw [text]
  by_cases empty : r.range chunk = []
  · rw [empty]
    rfl
  · rw [if_neg (mt Text.decodeLossy_eq_empty_iff.1 empty), List.filter_cons_of_pos (by simpa using empty)]
    rfl

/-- The end of the pipe passes on the text of the bytes that wait. -/
theorem toList_close (r : TextReader) : r.close.1.toList = texts [r.pending] := by
  unfold close texts
  by_cases empty : r.pending = []
  · rw [empty]
    rfl
  · rw [List.filter_cons_of_pos (by simpa using empty)]
    simp only [if_neg empty]
    rfl

/-! ## Many chunks -/

theorem after_concat (r : TextReader) (chunks : List (List UInt8)) (chunk : List UInt8) :
    r.after (chunks ++ [chunk]) = ((r.after chunks).feed chunk).2 :=
  List.foldl_append

/-- One chunk more adds a range, and changes none before it. -/
theorem ranges_concat (r : TextReader) (chunks : List (List UInt8)) (chunk : List UInt8) :
    r.ranges (chunks ++ [chunk]) = r.ranges chunks ++ [(r.after chunks).range chunk] := by
  induction chunks generalizing r with
  | nil => rfl
  | cons first later ih => exact congrArg (r.range first :: ·) (ih (r.feed first).2)

/-- What waits is the beginning of a character. -/
theorem isCutShort_after (cut : IsCutShort r.pending) (chunks : List (List UInt8)) :
    IsCutShort (r.after chunks).pending := by
  induction chunks generalizing r with
  | nil => exact cut
  | cons chunk later ih => exact ih (r := (r.feed chunk).2) (parted_feed r chunk).isCutShort

/-- The ranges that are read, and the bytes that wait behind them, are all bytes that have arrived. -/
theorem flatten_ranges (r : TextReader) (chunks : List (List UInt8)) :
    (r.ranges chunks).flatten ++ (r.after chunks).pending = r.pending ++ chunks.flatten := by
  induction chunks generalizing r with
  | nil => exact (List.append_nil _).symm
  | cons chunk later ih =>
    calc (r.ranges (chunk :: later)).flatten ++ (r.after (chunk :: later)).pending
      _ = r.range chunk ++
          (((r.feed chunk).2.ranges later).flatten ++ ((r.feed chunk).2.after later).pending) :=
        List.append_assoc _ _ _
      _ = (r.range chunk ++ (r.feed chunk).2.pending) ++ later.flatten := by
        rw [ih, List.append_assoc]
      _ = r.pending ++ (chunk :: later).flatten := by
        rw [(parted_feed r chunk).append, List.append_assoc]
        rfl

theorem texts_append (before later : List (List UInt8)) :
    texts (before ++ later) = texts before ++ texts later := by
  unfold texts
  rw [List.filter_append, List.map_append]

/-- The texts of a whole stream are those of the ranges that are read, and of the bytes that wait at
its end. -/
theorem passed_eq_texts (r : TextReader) (chunks : List (List UInt8)) :
    r.passed chunks = texts (r.ranges chunks ++ [(r.after chunks).pending]) := by
  induction chunks generalizing r with
  | nil => exact toList_close r
  | cons chunk later ih =>
    show (r.feed chunk).1.toList ++ (r.feed chunk).2.passed later = _
    rw [toList_feed, ih, ← texts_append]
    rfl

/-- After any chunks at most three bytes wait, a proper prefix of the bytes of a character. The ranges
that have been read, one a chunk, and the bytes that wait behind them are the bytes that have arrived,
each once and in order. Each range that is not empty is passed on as its text, and so are the bytes that
wait when the pipe ends. The next chunk leaves these ranges as they are and adds one: of the bytes that
waited and its own, a text up to a character that is cut short, or all of them if they are nothing of
this kind. -/
theorem ranges_and_pending (chunks : List (List UInt8)) :
    (start.after chunks).pending.length ≤ 3 ∧ IsCutShort (start.after chunks).pending ∧
      (start.ranges chunks).flatten ++ (start.after chunks).pending = chunks.flatten ∧
      start.passed chunks = texts (start.ranges chunks ++ [(start.after chunks).pending]) ∧
      ∀ chunk, ∃ range, start.ranges (chunks ++ [chunk]) = start.ranges chunks ++ [range] ∧
        Parted ((start.after chunks).pending ++ chunk) range (start.after (chunks ++ [chunk])).pending := by
  have cut : IsCutShort (start.after chunks).pending :=
    isCutShort_after (r := start) Text.isCutShort_nil chunks
  refine ⟨cut.length_le, cut, flatten_ranges start chunks, passed_eq_texts start chunks, fun chunk => ?_⟩
  refine ⟨(start.after chunks).range chunk, ranges_concat start chunks chunk, ?_⟩
  rw [after_concat]
  exact parted_feed (start.after chunks) chunk

/-- The bytes of the sign for the euro, one a chunk: nothing is read before the last one. -/
example : start.ranges [[0x61, 0xE2], [0x82], [0xAC, 0x62]] = [[0x61], [], [0xE2, 0x82, 0xAC, 0x62]] := by
  decide

end SnippetRunner.Worker.TextReader
