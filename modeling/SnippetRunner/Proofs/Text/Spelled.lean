import SnippetRunner.Proofs.Text.Encoding
import SnippetRunner.Proofs.Text.Utf16

/-!
# Bytes that denote a text

The bytes that are read as a text are its bytes, so that a text has one encoding. What carries this through a
stream is that the bytes of an unfinished character, with any that may still come, are those of the character
which they finish.
-/

namespace SnippetRunner.Text

open Decoding (fresh)

variable {parts : List (Option Char)} {u : Unfinished} {b : UInt8} {bs : List UInt8} {n : Nat} {c : Char}

/-! ## Bytes of a character -/

/-- A byte is its number. -/
theorem ofNat_eq_of_toNat_eq (same : n = b.toNat) : UInt8.ofNat n = b := by
  rw [same, UInt8.ofNat_toNat]

theorem utf8EncodeChar_one (h : n < 0x80) : String.utf8EncodeChar (.ofNat n) = [.ofNat n] := by
  have number : (Char.ofNat n).val.toNat = n := toNat_ofNat_of_valid (.inl (by omega))
  unfold String.utf8EncodeChar
  simp only [number]
  rw [if_pos (by omega)]

theorem utf8EncodeChar_two (least : 0x80 ≤ n) (most : n < 0x800) :
    String.utf8EncodeChar (.ofNat n) = [.ofNat (n / 64 + 0xC0), .ofNat (n % 64 + 0x80)] := by
  have number : (Char.ofNat n).val.toNat = n := toNat_ofNat_of_valid (.inl (by omega))
  unfold String.utf8EncodeChar
  simp only [number]
  rw [if_neg (by omega), if_pos (by omega), Nat.mod_eq_of_lt (a := n / 64) (by omega)]

theorem utf8EncodeChar_three (least : 0x800 ≤ n) (most : n < 0x10000)
    (valid : n < 0xD800 ∨ 0xDFFF < n) :
    String.utf8EncodeChar (.ofNat n) =
      [.ofNat (n / 4096 + 0xE0), .ofNat (n / 64 % 64 + 0x80), .ofNat (n % 64 + 0x80)] := by
  have number : (Char.ofNat n).val.toNat = n :=
    toNat_ofNat_of_valid (valid.imp id fun above => ⟨above, by omega⟩)
  unfold String.utf8EncodeChar
  simp only [number]
  rw [if_neg (by omega), if_neg (by omega), if_pos (by omega),
    Nat.mod_eq_of_lt (a := n / 4096) (by omega)]

theorem utf8EncodeChar_four (least : 0x10000 ≤ n) (most : n < 0x110000) :
    String.utf8EncodeChar (.ofNat n) = [.ofNat (n / 262144 + 0xF0), .ofNat (n / 4096 % 64 + 0x80),
      .ofNat (n / 64 % 64 + 0x80), .ofNat (n % 64 + 0x80)] := by
  have number : (Char.ofNat n).val.toNat = n := toNat_ofNat_of_valid (.inr ⟨by omega, most⟩)
  unfold String.utf8EncodeChar
  simp only [number]
  rw [if_neg (by omega), if_neg (by omega), if_neg (by omega),
    Nat.mod_eq_of_lt (a := n / 262144) (by omega)]

/-! ## Unfinished characters -/

/-- Whatever bytes come that can come next, they finish the character whose first bytes have arrived. -/
inductive Unfinished.Spells : Unfinished → Prop where
  | last {u : Unfinished} (last : u.after = 0)
      (whole : ∀ b, u.Takes b → String.utf8EncodeChar (.ofNat (u.code * 64 + (b.toNat - 0x80))) =
        u.bytes ++ [b]) : Spells u
  | more {u : Unfinished} {k : Nat} (more : u.after = k + 1)
      (next : ∀ b, u.Takes b →
        Spells ⟨u.bytes ++ [b], u.code * 64 + (b.toNat - 0x80), 0x80, 0xBF, k⟩) : Spells u

/-- The range of a byte that comes next, in numbers. -/
theorem takes_iff_toNat : u.Takes b ↔ u.low.toNat ≤ b.toNat ∧ b.toNat ≤ u.high.toNat := by
  unfold Unfinished.Takes
  rw [UInt8.le_iff_toNat_le, UInt8.le_iff_toNat_le]

theorem spells_two {code : Nat} (first : b.toNat = code + 0xC0) (least : 2 ≤ code) (most : code < 0x20) :
    Unfinished.Spells ⟨[b], code, 0x80, 0xBF, 0⟩ := by
  refine .last rfl fun d takes => ?_
  obtain ⟨low, high⟩ : 0x80 ≤ d.toNat ∧ d.toNat ≤ 0xBF := takes_iff_toNat.1 takes
  simp only
  rw [utf8EncodeChar_two (by omega) (by omega), ofNat_eq_of_toNat_eq (b := b) (by omega),
    ofNat_eq_of_toNat_eq (b := d) (by omega)]
  rfl

theorem spells_three {code : Nat} {low high : UInt8} (first : b.toNat = code + 0xE0) (most : code < 0x10)
    (overlong : code = 0 → low = 0xA0) (surrogate : code = 0xD → high = 0x9F)
    (least : 0x80 ≤ low.toNat) (greatest : high.toNat ≤ 0xBF) :
    Unfinished.Spells ⟨[b], code, low, high, 1⟩ := by
  refine .more rfl fun d second => .last rfl fun e third => ?_
  obtain ⟨secondLow, secondHigh⟩ : low.toNat ≤ d.toNat ∧ d.toNat ≤ high.toNat :=
    takes_iff_toNat.1 second
  obtain ⟨thirdLow, thirdHigh⟩ : 0x80 ≤ e.toNat ∧ e.toNat ≤ 0xBF := takes_iff_toNat.1 third
  -- the narrower ranges keep the number out of the overlong forms and the surrogates
  have overlong : code = 0 → low.toNat = 0xA0 := fun is => by rw [overlong is]; rfl
  have surrogate : code = 0xD → high.toNat = 0x9F := fun is => by rw [surrogate is]; rfl
  simp only
  rw [utf8EncodeChar_three (by omega) (by omega) (by omega), ofNat_eq_of_toNat_eq (b := b) (by omega),
    ofNat_eq_of_toNat_eq (b := d) (by omega), ofNat_eq_of_toNat_eq (b := e) (by omega)]
  rfl

theorem spells_four {code : Nat} {low high : UInt8} (first : b.toNat = code + 0xF0) (most : code < 5)
    (overlong : code = 0 → low = 0x90) (beyond : code = 4 → high = 0x8F)
    (least : 0x80 ≤ low.toNat) (greatest : high.toNat ≤ 0xBF) :
    Unfinished.Spells ⟨[b], code, low, high, 2⟩ := by
  refine .more rfl fun d second => .more rfl fun e third => .last rfl fun f fourth => ?_
  obtain ⟨secondLow, secondHigh⟩ : low.toNat ≤ d.toNat ∧ d.toNat ≤ high.toNat :=
    takes_iff_toNat.1 second
  obtain ⟨thirdLow, thirdHigh⟩ : 0x80 ≤ e.toNat ∧ e.toNat ≤ 0xBF := takes_iff_toNat.1 third
  obtain ⟨fourthLow, fourthHigh⟩ : 0x80 ≤ f.toNat ∧ f.toNat ≤ 0xBF := takes_iff_toNat.1 fourth
  have overlong : code = 0 → low.toNat = 0x90 := fun is => by rw [overlong is]; rfl
  have beyond : code = 4 → high.toNat = 0x8F := fun is => by rw [beyond is]; rfl
  simp only
  rw [utf8EncodeChar_four (by omega) (by omega), ofNat_eq_of_toNat_eq (b := b) (by omega),
    ofNat_eq_of_toNat_eq (b := d) (by omega), ofNat_eq_of_toNat_eq (b := e) (by omega),
    ofNat_eq_of_toNat_eq (b := f) (by omega)]
  rfl

/-- A byte that is a character by itself. -/
theorem utf8EncodeChar_of_lead (h : lead b = .whole c) : String.utf8EncodeChar c = [b] := by
  unfold lead at h
  simp only at h
  split at h
  next ascii =>
    cases h
    rw [utf8EncodeChar_one ascii, ofNat_eq_of_toNat_eq rfl]
  next => grind

/-- A byte that begins a character. -/
theorem spells_of_lead (h : lead b = .opens u) : u.Spells ∧ u.bytes = [b] := by
  have eq_iff : ∀ d : UInt8, b = d ↔ b.toNat = d.toNat := fun d => UInt8.toNat_inj.symm
  unfold lead at h
  simp only at h
  split at h
  · cases h
  split at h
  · cases h
  split at h
  next two =>
    cases h
    exact ⟨spells_two (by omega) (by omega) (by omega), rfl⟩
  split at h
  next three =>
    cases h
    refine ⟨spells_three (by omega) (by omega) (fun is => if_pos ?_) (fun is => if_pos ?_) ?_ ?_, rfl⟩
    · exact (eq_iff 0xE0).2 (show b.toNat = 0xE0 by omega)
    · exact (eq_iff 0xED).2 (show b.toNat = 0xED by omega)
    · split <;> decide
    · split <;> decide
  split at h
  next four =>
    cases h
    refine ⟨spells_four (by omega) (by omega) (fun is => if_pos ?_) (fun is => if_pos ?_) ?_ ?_, rfl⟩
    · exact (eq_iff 0xF0).2 (show b.toNat = 0xF0 by omega)
    · exact (eq_iff 0xF4).2 (show b.toNat = 0xF4 by omega)
    · split <;> decide
    · split <;> decide
  · cases h

/-! ## Streams -/

namespace Decoding

/-- Where nothing is malformed, the bytes are those of the characters read and of the unfinished one. -/
structure Spells (d : Decoding) (bs : List UInt8) : Prop where
  bytes : d.wellFormed = true →
    bs = (shown d.parts).flatMap String.utf8EncodeChar ++ (d.unfinished.map (·.bytes)).getD []
  unfinished : ∀ u ∈ d.unfinished, u.Spells

variable {d : Decoding}

theorem wellFormed_cons (p : Option Char) (w : Option Unfinished) :
    (⟨p :: parts, w⟩ : Decoding).wellFormed = true ↔ p.isSome = true ∧ parts.all Option.isSome = true := by
  unfold wellFormed
  rw [List.all_cons, Bool.and_eq_true]

theorem flatMap_shown_cons (c : Char) (parts : List (Option Char)) :
    (shown (some c :: parts)).flatMap String.utf8EncodeChar =
      (shown parts).flatMap String.utf8EncodeChar ++ String.utf8EncodeChar c := by
  rw [← List.singleton_append, shown_append, List.flatMap_append]
  exact congrArg _ (List.append_nil _)

/-- A byte at the start of a character. -/
theorem spells_fresh (whole : parts.all Option.isSome = true →
    bs = (shown parts).flatMap String.utf8EncodeChar) : (fresh parts b).Spells (bs ++ [b]) := by
  unfold fresh
  cases opened : lead b with
  | whole c =>
    refine ⟨fun well => ?_, nofun⟩
    rw [flatMap_shown_cons, ← whole ((wellFormed_cons (some c) none).1 well).2, utf8EncodeChar_of_lead opened]
    exact (List.append_nil _).symm
  | malformed => exact ⟨fun well => absurd ((wellFormed_cons none none).1 well).1 (by simp), nofun⟩
  | opens u =>
    obtain ⟨spells, bytes⟩ := spells_of_lead opened
    refine ⟨fun well => ?_, ?_⟩
    · rw [← whole well]
      exact congrArg (bs ++ ·) bytes.symm
    · rintro _ ⟨⟩
      exact spells

/-- One byte more. -/
theorem Spells.push (h : d.Spells bs) (b : UInt8) : (d.push b).Spells (bs ++ [b]) := by
  obtain ⟨parts, unfinished⟩ := d
  cases unfinished with
  | none => exact spells_fresh fun well => (h.bytes well).trans (List.append_nil _)
  | some u =>
    by_cases takes : u.Takes b
    · have bytes : parts.all Option.isSome = true →
          bs ++ [b] = (shown parts).flatMap String.utf8EncodeChar ++ (u.bytes ++ [b]) := by
        intro well
        rw [← List.append_assoc]
        exact congrArg (· ++ [b]) (h.bytes well)
      unfold Decoding.push
      simp only [if_pos (show u.low ≤ b ∧ b ≤ u.high from takes)]
      -- the byte is the last one of the character, or others come behind it
      cases h.unfinished u rfl with
      | last last whole =>
        rw [last]
        constructor
        · intro well
          rw [flatMap_shown_cons, whole b takes, bytes ((wellFormed_cons (some _) none).1 well).2,
            ← List.append_assoc]
          exact (List.append_nil _).symm
        · rintro _ ⟨⟩
      | more more next =>
        rw [more]
        refine ⟨bytes, ?_⟩
        rintro _ ⟨⟩
        exact next b takes
    · -- the character is given up, which is a malformed part
      rw [push_of_not_takes takes]
      exact spells_fresh fun well => absurd well (by simp)

theorem spells_ofBytes (bs : List UInt8) : (ofBytes bs).Spells bs := by
  induction bs using List.reverseRecOn with
  | nil => exact ⟨fun _ => rfl, nofun⟩
  | append_singleton bs b ih =>
    rw [ofBytes_concat]
    exact ih.push b

end Decoding

/-- Bytes denote a text exactly if they are its bytes. -/
theorem decode?_eq_some_iff_utf8 {s : String} : decode? bs = some s ↔ bs = utf8 s := by
  constructor
  · intro read
    obtain ⟨well, whole, text⟩ := decode?_eq_some_iff.1 read
    have bytes := (Decoding.spells_ofBytes bs).bytes well
    rw [whole] at bytes
    rw [bytes, ← text, Decoding.text_eq]
    unfold utf8
    rw [String.toList_ofList]
    exact List.append_nil _
  · rintro rfl
    exact decode?_utf8 s

end SnippetRunner.Text
