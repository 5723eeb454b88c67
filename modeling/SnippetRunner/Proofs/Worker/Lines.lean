import SnippetRunner.Proofs.Text.Encoding
import SnippetRunner.Worker.Incoming

/-!
# Lines from a worker

What the reader of events makes of one line that is text without control characters, from the end of
the line before: the event that it carries, nothing, or the end of all reading where the line is too
long.
-/

namespace SnippetRunner.Worker.EventReader

variable {line bs : List UInt8} {size : Nat} {events : List Wire.Event} {s : String}

/-- The reader at the start of a line, with these events read and not yet taken. -/
def atStart (events : List Wire.Event) : EventReader := ⟨[], 0, none, events⟩

/-- The reader that has given up on a line. -/
def gaveUp (events : List Wire.Event) : EventReader := ⟨[], 0, some .oversized, events⟩

/-- Nothing is read after that. -/
theorem feed_gaveUp (events : List Wire.Event) (bs : List UInt8) :
    (gaveUp events).feed bs = gaveUp events := by
  induction bs with
  | nil => rfl
  | cons b bs ih => exact ih

/-- A byte of a line is kept where there is room for it. -/
theorem push_of_room {b : UInt8} (other : b ≠ 0x0A) (room : ¬maxLine ≤ size) :
    push ⟨line, size, none, events⟩ b = ⟨b :: line, size + 1, none, events⟩ := by
  unfold push
  simp only
  rw [if_neg (by simp), if_neg other, if_neg room]

/-- Where there is none, the reader gives up. -/
theorem push_of_full {b : UInt8} (other : b ≠ 0x0A) (full : maxLine ≤ size) :
    push ⟨line, size, none, events⟩ b = gaveUp events := by
  unfold push
  simp only
  rw [if_neg (by simp), if_neg other, if_pos full]
  rfl

/-- The bytes of a line are kept as long as there is room for them. -/
theorem feed_of_fits (inside : ∀ b ∈ bs, b ≠ 0x0A) (fits : size + bs.length ≤ maxLine) :
    feed ⟨line, size, none, events⟩ bs = ⟨bs.reverse ++ line, size + bs.length, none, events⟩ := by
  induction bs generalizing line size with
  | nil => rfl
  | cons b bs ih =>
    have other : b ≠ 0x0A := inside b (List.mem_cons_self ..)
    have room : ¬maxLine ≤ size := by
      rw [List.length_cons] at fits
      omega
    have later := @ih (b :: line) (size + 1)
      (fun b h => inside b (List.mem_cons_of_mem _ h)) (by rw [List.length_cons] at fits; omega)
    show feed (push ⟨line, size, none, events⟩ b) bs = _
    rw [push_of_room other room, later, List.reverse_cons, List.append_assoc, List.length_cons, Nat.add_assoc,
      Nat.add_comm 1]
    rfl

/-- The reader gives up on a line that is too long. -/
theorem feed_of_oversized (inside : ∀ b ∈ bs, b ≠ 0x0A) (started : size ≤ maxLine)
    (large : maxLine < size + bs.length) :
    feed ⟨line, size, none, events⟩ bs = gaveUp events := by
  induction bs generalizing line size with
  | nil => exact absurd large (Nat.not_lt.2 started)
  | cons b bs ih =>
    have other : b ≠ 0x0A := inside b (List.mem_cons_self ..)
    show feed (push ⟨line, size, none, events⟩ b) bs = _
    by_cases full : maxLine ≤ size
    · rw [push_of_full other full, feed_gaveUp]
    · rw [push_of_room other full]
      apply ih (fun b h => inside b (List.mem_cons_of_mem _ h)) (by omega)
      rw [List.length_cons] at large
      omega

/-- What the reader holds after a line that carries this. -/
def after (events : List Wire.Event) : Option Wire.Event → EventReader
  | none => atStart events
  | some e => atStart (e :: events)

/-- A line that is text is read as the event that it carries. -/
theorem endLine_of_text (inside : ∀ b ∈ Text.utf8 s, b ≠ 0x0D) (visible : Text.allBlank s = false) :
    endLine ⟨(Text.utf8 s).reverse, size, none, events⟩ = after events (Wire.Event.decode? s) := by
  have kept : dropReturn (Text.utf8 s).reverse = (Text.utf8 s).reverse := by
    cases reversed : (Text.utf8 s).reverse with
    | nil => rfl
    | cons b r =>
      have other : b ≠ 0x0D := inside b (List.mem_reverse.1 (reversed ▸ List.mem_cons_self ..))
      unfold dropReturn
      split
      next is => exact absurd (List.cons.inj is).1 other
      next => rfl
  unfold endLine
  simp only [kept, List.reverse_reverse, Text.decode?_utf8, visible]
  cases Wire.Event.decode? s <;> rfl

/-- A whole line. -/
theorem feed_line (control : ∀ b ∈ Text.utf8 s, 0x20 ≤ b.toNat) (visible : Text.allBlank s = false) :
    (atStart events).feed (Text.utf8 s ++ [0x0A]) =
      if (Text.utf8 s).length ≤ maxLine then after events (Wire.Event.decode? s)
      else gaveUp events := by
  have noNewline : ∀ b ∈ Text.utf8 s, b ≠ 0x0A := fun b h is => absurd (control b h) (is ▸ by decide)
  have noReturn : ∀ b ∈ Text.utf8 s, b ≠ 0x0D := fun b h is => absurd (control b h) (is ▸ by decide)
  have split : ∀ r : EventReader, r.feed (Text.utf8 s ++ [0x0A]) = (r.feed (Text.utf8 s)).push 0x0A :=
    fun r => List.foldl_append
  rw [split]
  by_cases fits : (Text.utf8 s).length ≤ maxLine
  · have read : (atStart events).feed (Text.utf8 s) =
        ⟨(Text.utf8 s).reverse ++ [], 0 + (Text.utf8 s).length, none, events⟩ :=
      feed_of_fits noNewline (by omega)
    rw [if_pos fits, read, List.append_nil]
    exact endLine_of_text noReturn visible
  · have read : (atStart events).feed (Text.utf8 s) = gaveUp events :=
      feed_of_oversized noNewline (Nat.zero_le _) (by omega)
    rw [if_neg fits, read]
    rfl

end SnippetRunner.Worker.EventReader
