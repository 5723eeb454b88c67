import Mathlib.Data.List.Induction
import SnippetRunner.Text.Utf8

/-!
# Decoding in pieces

A decoding never looks back at the parts it has read, so bytes may be decoded in two pieces as long
as an unfinished character between them is not lost: it can be begun again from its own bytes. Where
it is given up although the next byte continues it, the text becomes longer, since that byte is a
malformed part of its own at the start of a character.
-/

namespace SnippetRunner.Text

/-! ## The text of the parts -/

/-- What is read of a part. -/
def shown (parts : List (Option Char)) : List Char := parts.reverse.map (·.getD replacement)

theorem shown_append (parts before : List (Option Char)) :
    shown (parts ++ before) = shown before ++ shown parts := by
  unfold shown
  rw [List.reverse_append, List.map_append]

variable {parts : List (Option Char)} {d : Decoding} {u : Unfinished} {b : UInt8}
  {bs more : List UInt8}

namespace Decoding

theorem text_eq (d : Decoding) : d.text = String.ofList (shown d.parts) := by
  unfold text shown
  rw [List.foldl_flip_cons_eq_append, List.append_nil, List.map_reverse]

/-- The text of a part. -/
theorem text_single (p : Option Char) (w : Option Unfinished) :
    text ⟨[p], w⟩ = String.singleton (p.getD replacement) := by
  rw [text_eq, String.singleton_eq_ofList]
  rfl

theorem finish_of_none (h : d.unfinished = none) : d.finish = d.text := by
  unfold finish
  rw [h]

theorem finish_of_some (h : d.unfinished = some u) :
    d.finish = d.text ++ String.singleton replacement := by
  unfold finish
  rw [h]
  show text ⟨none :: d.parts, none⟩ = _
  rw [text_eq, text_eq, String.singleton_eq_ofList, ← String.ofList_append]
  exact congrArg String.ofList (shown_append [none] d.parts)

/-! ## More parts in front -/

/-- The decoding with these parts read before its own. -/
def behind (parts : List (Option Char)) (d : Decoding) : Decoding :=
  ⟨d.parts ++ parts, d.unfinished⟩

/-- Every decoding is one without parts, behind its own. -/
theorem eq_behind (d : Decoding) : d = behind d.parts ⟨[], d.unfinished⟩ := rfl

theorem fresh_behind (ps parts : List (Option Char)) (b : UInt8) :
    fresh (ps ++ parts) b = behind parts (fresh ps b) := by
  unfold fresh
  cases lead b <;> rfl

theorem push_behind (parts : List (Option Char)) (d : Decoding) (b : UInt8) :
    (behind parts d).push b = behind parts (d.push b) := by
  obtain ⟨ps, unfinished⟩ := d
  cases unfinished with
  | none => exact fresh_behind ps parts b
  | some u =>
    show push ⟨ps ++ parts, some u⟩ b = behind parts (push ⟨ps, some u⟩ b)
    unfold push
    by_cases goesOn : u.low ≤ b ∧ b ≤ u.high
    · simp only [goesOn, and_self, if_true]
      cases u.after <;> rfl
    · simp only [goesOn, if_false]
      exact fresh_behind (none :: ps) parts b

theorem foldl_push_behind (parts : List (Option Char)) (d : Decoding) (bs : List UInt8) :
    bs.foldl push (behind parts d) = behind parts (bs.foldl push d) := by
  induction bs generalizing d with
  | nil => rfl
  | cons b bs ih =>
    rw [List.foldl_cons, List.foldl_cons, push_behind]
    exact ih (d.push b)

theorem text_behind (parts : List (Option Char)) (d : Decoding) :
    (behind parts d).text = text ⟨parts, none⟩ ++ d.text := by
  rw [text_eq, text_eq, text_eq, ← String.ofList_append]
  exact congrArg String.ofList (shown_append d.parts parts)

theorem finish_behind (parts : List (Option Char)) (d : Decoding) :
    (behind parts d).finish = text ⟨parts, none⟩ ++ d.finish := by
  cases h : d.unfinished with
  | none => rw [finish_of_none (d := behind parts d) h, finish_of_none h, text_behind]
  | some u =>
    rw [finish_of_some (d := behind parts d) h, finish_of_some h, text_behind, String.append_assoc]

theorem ofBytes_concat (bs : List UInt8) (b : UInt8) : ofBytes (bs ++ [b]) = (ofBytes bs).push b :=
  List.foldl_append

/-- Bytes to which more are added. -/
theorem ofBytes_append (bs more : List UInt8) :
    ofBytes (bs ++ more) =
      behind (ofBytes bs).parts (more.foldl push ⟨[], (ofBytes bs).unfinished⟩) := by
  show List.foldl push start (bs ++ more) = _
  rw [List.foldl_append, ← foldl_push_behind]
  rfl

theorem wellFormed_behind :
    (behind parts d).wellFormed = true ↔
      (⟨parts, none⟩ : Decoding).wellFormed = true ∧ d.wellFormed = true := by
  show (d.parts ++ parts).all Option.isSome = true ↔ _
  rw [List.all_append, Bool.and_eq_true, and_comm]
  rfl

/-! ## Unfinished characters -/

end Decoding

/-- The byte can come next. -/
def Unfinished.Takes (u : Unfinished) (b : UInt8) : Prop := u.low ≤ b ∧ b ≤ u.high

/-- The character has been begun by its own bytes, and only a byte at which no character starts can
come next. -/
structure Unfinished.IsBegun (u : Unfinished) : Prop where
  bytes : Decoding.ofBytes u.bytes = ⟨[], some u⟩
  low : 0x80 ≤ u.low
  high : u.high ≤ 0xBF

/-- What a first byte opens is begun by it. -/
theorem isBegun_of_lead (h : lead b = .opens u) : u.IsBegun := by
  have bytes : u.bytes = [b] := by
    unfold lead at h
    grind
  refine ⟨?_, ?_, ?_⟩
  · show Decoding.ofBytes u.bytes = _
    rw [bytes]
    show Decoding.fresh [] b = _
    unfold Decoding.fresh
    rw [h]
  · unfold lead at h
    grind
  · unfold lead at h
    grind

/-- No character starts with a byte that continues one. -/
theorem Unfinished.IsBegun.lead_of_takes (begun : u.IsBegun)
    (takes : u.Takes b) : lead b = .malformed := by
  have low : 0x80 ≤ b := UInt8.le_trans begun.low takes.1
  have high : b ≤ 0xBF := UInt8.le_trans takes.2 begun.high
  rw [UInt8.le_iff_toNat_le] at low high
  have low : 0x80 ≤ b.toNat := low
  have high : b.toNat ≤ 0xBF := high
  unfold lead
  simp only
  rw [if_neg (by omega), if_pos (by omega)]

namespace Decoding

/-- The next byte finishes an unfinished character, or continues it. -/
theorem push_of_takes (takes : u.Takes b) :
    (∃ c, ∀ parts, push ⟨parts, some u⟩ b = ⟨some c :: parts, none⟩) ∨
      ∃ u' : Unfinished, (∀ parts, push ⟨parts, some u⟩ b = ⟨parts, some u'⟩) ∧
        u'.bytes = u.bytes ++ [b] ∧ u'.low = 0x80 ∧ u'.high = 0xBF := by
  have inside : u.low ≤ b ∧ b ≤ u.high := takes
  unfold push
  simp only [inside, and_self, if_true]
  cases u.after with
  | zero => exact .inl ⟨_, fun _ => rfl⟩
  | succ n => exact .inr ⟨_, fun _ => rfl, rfl, rfl, rfl⟩

/-- A byte that cannot come next makes the unfinished character a malformed part. -/
theorem push_of_not_takes (refuses : ¬u.Takes b) :
    push ⟨parts, some u⟩ b = fresh (none :: parts) b :=
  if_neg refuses

/-- What is unfinished after a byte at the start of a character has been opened by it. -/
theorem lead_of_fresh (h : (fresh parts b).unfinished = some u) : lead b = .opens u := by
  unfold fresh at h
  cases opened : lead b with
  | whole c => simp [opened] at h
  | malformed => simp [opened] at h
  | opens v =>
    rw [opened] at h
    cases h
    rfl

/-- What is unfinished after a byte has been opened by it, or was unfinished before and is continued
by it. -/
theorem opens_or_continues_of_push (h : (d.push b).unfinished = some u) :
    lead b = .opens u ∨ ∃ v : Unfinished, d.unfinished = some v ∧
      (∀ parts, push ⟨parts, some v⟩ b = ⟨parts, some u⟩) ∧
        u.bytes = v.bytes ++ [b] ∧ u.low = 0x80 ∧ u.high = 0xBF := by
  obtain ⟨parts, unfinished⟩ := d
  cases unfinished with
  | none => exact .inl (lead_of_fresh h)
  | some v =>
    by_cases takes : v.Takes b
    · rcases push_of_takes takes with ⟨c, eq⟩ | ⟨v', eq, continued⟩
      · rw [eq] at h
        cases h
      · rw [eq] at h
        cases h
        exact .inr ⟨v, rfl, eq, continued⟩
    · -- the byte that cannot come next stands at the start of another character
      rw [push_of_not_takes takes] at h
      exact .inl (lead_of_fresh h)

/-- One byte more keeps what is unfinished begun. -/
theorem isBegun_of_push (begun : ∀ v, d.unfinished = some v → v.IsBegun)
    (h : (d.push b).unfinished = some u) : u.IsBegun := by
  rcases opens_or_continues_of_push h with opened | ⟨v, before, eq, bytes, low, high⟩
  · exact isBegun_of_lead opened
  · refine ⟨?_, low ▸ UInt8.le_refl _, high ▸ UInt8.le_refl _⟩
    rw [bytes, ofBytes_concat, (begun v before).bytes]
    exact eq []

/-- Whatever is unfinished after some bytes has been begun by the last ones of them. -/
theorem isBegun_of_ofBytes (h : (ofBytes bs).unfinished = some u) : u.IsBegun := by
  induction bs using List.reverseRecOn generalizing u with
  | nil => cases h
  | append_singleton bs b ih =>
    rw [ofBytes_concat] at h
    exact isBegun_of_push (fun _ => ih) h

/-! ## What is left to read -/

/-- The text of bytes that come after those of an unfinished character, if there is one. -/
def onward (unfinished : Option Unfinished) (bs : List UInt8) : String :=
  (bs.foldl push ⟨[], unfinished⟩).finish

theorem onward_none (bs : List UInt8) : onward none bs = decodeLossy bs := rfl

/-- The text of bytes to which more are added. -/
theorem decodeLossy_append (bs more : List UInt8) :
    decodeLossy (bs ++ more) = (ofBytes bs).text ++ onward (ofBytes bs).unfinished more := by
  unfold decodeLossy
  rw [ofBytes_append, finish_behind]
  rfl

/-- The text of one byte and more. -/
theorem onward_cons (w : Option Unfinished) (b : UInt8) (bs : List UInt8) :
    onward w (b :: bs) =
      (push ⟨[], w⟩ b).text ++ onward (push ⟨[], w⟩ b).unfinished bs := by
  unfold onward
  rw [List.foldl_cons, eq_behind (push ⟨[], w⟩ b), foldl_push_behind, finish_behind]
  rfl

/-- An unfinished character that the next byte does not continue is one malformed part. -/
theorem onward_of_not_takes (refuses : ¬u.Takes b) (bs : List UInt8) :
    onward (some u) (b :: bs) = String.singleton replacement ++ onward none (b :: bs) := by
  have given : push ⟨[], some u⟩ b = behind [none] (push ⟨[], none⟩ b) :=
    (push_of_not_takes refuses).trans (fresh_behind [] [none] b)
  rw [onward_cons, onward_cons, given, text_behind, text_single, String.append_assoc]
  rfl

/-- A byte that continues a character is one malformed part where no character has been begun. -/
theorem onward_none_of_takes (begun : u.IsBegun) (takes : u.Takes b) (bs : List UInt8) :
    onward none (b :: bs) = String.singleton replacement ++ onward none bs := by
  have malformed : push ⟨[], none⟩ b = ⟨[none], none⟩ := by
    show fresh [] b = _
    unfold fresh
    rw [begun.lead_of_takes takes]
  rw [onward_cons, malformed, text_single]
  rfl

theorem length_singleton_append (c : Char) (s : String) :
    (String.singleton c ++ s).length = s.length + 1 := by
  rw [String.length_append, String.length_singleton, Nat.add_comm]

/-- A character that the next byte continues is one character of the text, if what comes after it
gives at most one character more than on its own. -/
theorem length_onward_of_takes (begun : u.IsBegun) (takes : u.Takes b)
    (later : ∀ u' : Unfinished, u'.IsBegun →
      (onward (some u') bs).length ≤ (onward none bs).length + 1) :
    (onward (some u) (b :: bs)).length ≤ (onward none bs).length + 1 := by
  rw [onward_cons]
  rcases push_of_takes takes with ⟨c, eq⟩ | ⟨u', eq, -, -, -⟩
  · refine Nat.le_of_eq ?_
    rw [eq [], text_single, length_singleton_append]
  · have begun' : u'.IsBegun := by
      apply isBegun_of_push (d := ⟨[], some u⟩) (b := b)
      · intro v is
        exact Option.some.inj is ▸ begun
      · rw [eq []]
    rw [eq []]
    show ("" ++ onward (some u') bs).length ≤ _
    rw [String.empty_append]
    exact later u' begun'

/-- With an unfinished character before them, bytes give at most one character more than without. -/
theorem length_onward_le (begun : u.IsBegun) (bs : List UInt8) :
    (onward (some u) bs).length ≤ (onward none bs).length + 1 := by
  induction bs generalizing u with
  | nil =>
    unfold onward
    rw [List.foldl_nil, finish_of_some (u := u) rfl, String.length_append, String.length_singleton]
    exact Nat.le_refl _
  | cons b bs ih =>
    by_cases takes : u.Takes b
    · have own := length_onward_of_takes begun takes fun _ => ih
      rw [onward_none_of_takes begun takes, length_singleton_append]
      omega
    · refine Nat.le_of_eq ?_
      rw [onward_of_not_takes takes, length_singleton_append]

/-- Where the first byte continues the unfinished character, giving that up makes the text longer. -/
theorem length_onward_le_of_takes (begun : u.IsBegun) (takes : u.Takes b) (bs : List UInt8) :
    (onward (some u) (b :: bs)).length ≤ (onward none (b :: bs)).length := by
  have own : (onward (some u) (b :: bs)).length ≤ (onward none bs).length + 1 :=
    length_onward_of_takes begun takes fun _ begun' => length_onward_le begun' bs
  rw [onward_none_of_takes begun takes, length_singleton_append]
  exact own

end Decoding

/-- The bytes encode a text if no part is malformed and nothing is unfinished. -/
theorem decode?_eq_some_iff {s : String} :
    decode? bs = some s ↔ (Decoding.ofBytes bs).wellFormed = true ∧
      (Decoding.ofBytes bs).unfinished = none ∧ (Decoding.ofBytes bs).text = s := by
  unfold decode?
  simp only [Option.ite_none_right_eq_some, Bool.and_eq_true, Option.isNone_iff_eq_none,
    Option.some.injEq, and_assoc]

/-! ## Taking text -/

/-- Bytes that are read at once, for a malformed part among them, although they end inside a
character that the bytes after them continue. -/
def Tears (bs more : List UInt8) : Prop :=
  (Decoding.ofBytes bs).wellFormed = false ∧
    ∃ u, (Decoding.ofBytes bs).unfinished = some u ∧ ∃ b ∈ more.head?, u.Takes b

/-- Well-formed bytes are read up to the unfinished character at their end. -/
theorem takeText_of_wellFormed (h : (Decoding.ofBytes bs).wellFormed = true) :
    takeText bs = ((Decoding.ofBytes bs).text,
      ((Decoding.ofBytes bs).unfinished.map (·.bytes)).getD []) := by
  unfold takeText
  cases unfinished : (Decoding.ofBytes bs).unfinished <;> simp only [h, unfinished] <;> rfl

/-- With a malformed part among them, all bytes are read at once. -/
theorem takeText_of_malformed (h : (Decoding.ofBytes bs).wellFormed = false) :
    takeText bs = ((Decoding.ofBytes bs).finish, []) := by
  unfold takeText
  simp only [h]

/-- What is kept for later of well-formed bytes stands for the unfinished character. -/
theorem ofBytes_takeText (h : (Decoding.ofBytes bs).wellFormed = true) (more : List UInt8) :
    Decoding.ofBytes (bs ++ more) =
      .behind (Decoding.ofBytes bs).parts (Decoding.ofBytes ((takeText bs).2 ++ more)) := by
  rw [Decoding.ofBytes_append bs, takeText_of_wellFormed h]
  cases unfinished : (Decoding.ofBytes bs).unfinished with
  | none => rfl
  | some u =>
    show _ = Decoding.behind _ (Decoding.ofBytes (u.bytes ++ more))
    rw [Decoding.ofBytes_append u.bytes, (Decoding.isBegun_of_ofBytes unfinished).bytes]
    exact congrArg (Decoding.behind _) (congrArg (Decoding.mk · _) (List.append_nil _).symm)

/-- The text of bytes that do not tear is taken as the whole reads it. -/
theorem takeText_of_not_tears (whole : ¬Tears bs more) :
    (takeText bs).1 ++ decodeLossy ((takeText bs).2 ++ more) = decodeLossy (bs ++ more) := by
  cases wellFormed : (Decoding.ofBytes bs).wellFormed with
  | true =>
    show _ = (Decoding.ofBytes (bs ++ more)).finish
    rw [ofBytes_takeText wellFormed, Decoding.finish_behind, takeText_of_wellFormed wellFormed]
    rfl
  | false =>
    rw [takeText_of_malformed wellFormed, Decoding.decodeLossy_append bs, List.nil_append,
      ← Decoding.onward_none]
    cases unfinished : (Decoding.ofBytes bs).unfinished with
    | none => rw [Decoding.finish_of_none unfinished]
    | some u =>
      rw [Decoding.finish_of_some unfinished, String.append_assoc]
      cases more with
      | nil => rfl
      | cons b more =>
        have refuses : ¬u.Takes b := fun takes => whole ⟨wellFormed, u, unfinished, b, rfl, takes⟩
        rw [Decoding.onward_of_not_takes refuses]

/-- The text of bytes that tear is longer than as the whole reads it. -/
theorem length_takeText_of_tears (torn : Tears bs more) :
    (decodeLossy (bs ++ more)).length <
      ((takeText bs).1 ++ decodeLossy ((takeText bs).2 ++ more)).length := by
  -- what has been read at once is as the whole reads it, and then the torn character is given up
  obtain ⟨malformed, u, unfinished, b, first, takes⟩ := torn
  obtain ⟨more, rfl⟩ : ∃ later, more = b :: later := by
    cases more with
    | nil => cases first
    | cons c later => exact ⟨later, by rw [Option.some.inj first]⟩
  have shorter := Decoding.length_onward_le_of_takes (Decoding.isBegun_of_ofBytes unfinished) takes more
  rw [takeText_of_malformed malformed, Decoding.decodeLossy_append bs, unfinished,
    Decoding.finish_of_some unfinished, String.append_assoc, String.length_append,
    String.length_append, Decoding.length_singleton_append, List.nil_append, ← Decoding.onward_none]
  omega

/-- What comes before and after in well-formed bytes is well formed. -/
theorem wellFormed_append (bs more : List UInt8) :
    (Decoding.ofBytes (bs ++ more)).wellFormed = true →
      (Decoding.ofBytes bs).wellFormed = true ∧
        (Decoding.ofBytes ((takeText bs).2 ++ more)).wellFormed = true := by
  intro h
  have front : (Decoding.ofBytes bs).wellFormed = true := by
    rw [Decoding.ofBytes_append] at h
    exact (Decoding.wellFormed_behind.1 h).1
  rw [ofBytes_takeText front] at h
  exact ⟨front, (Decoding.wellFormed_behind.1 h).2⟩

end SnippetRunner.Text
