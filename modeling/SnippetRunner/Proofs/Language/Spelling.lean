import SnippetRunner.Language.Spec

/-!
# Spellings of a name

A name may be written with blanks around it, in any mix of ASCII upper and lower case, and with a dot
before it if it has none of its own. However it is written, its normal form is the same: trimming finds
the characters between the blanks, the dot is the one that is dropped, and the rest is one letter for
another.
-/

namespace SnippetRunner.Language

variable {c d : Char} {cs ds before after : List Char} {name identifier : String}

/-! ## Letters -/

/-- The characters are the same but for the case of their ASCII letters. -/
def SameLetters (cs ds : List Char) : Prop := cs.map lower = ds.map lower

/-- A character in lower case is the character itself, or a letter for a letter. -/
theorem lower_cases (c : Char) :
    lower c = c ∨ (65 ≤ c.toNat ∧ c.toNat ≤ 90) ∧ (lower c).toNat = c.toNat + 32 := by
  unfold lower
  split
  next upper =>
    have low : 65 ≤ c.toNat := upper.1
    have high : c.toNat ≤ 90 := upper.2
    have valid : (c.toNat + 32).isValidChar := by
      left
      omega
    right
    refine ⟨⟨low, high⟩, ?_⟩
    rw [Char.ofNat, dif_pos valid]
    show (UInt32.ofNatLT _ _).toNat = _
    exact UInt32.toNat_ofNatLT ..
  next => exact .inl rfl

/-- Case has nothing to do with blanks. -/
theorem isBlank_lower (c : Char) : Text.isBlank (lower c) = Text.isBlank c := by
  rcases lower_cases c with same | ⟨letter, shifted⟩
  · rw [same]
  · have neither : ∀ n, 65 ≤ n → n ≤ 122 → ∀ e : Char, e.toNat = n → Text.isBlank e = false := by
      intro n low high e is
      unfold Text.isBlank
      simp only [is, Bool.or_eq_false_iff, Bool.and_eq_false_iff, decide_eq_false_iff_not,
        beq_eq_false_iff_ne]
      omega
    rw [neither _ (by omega) (by omega) _ shifted, neither _ (by omega) (by omega) c rfl]

theorem isBlank_eq_of_lower_eq (same : lower c = lower d) : Text.isBlank c = Text.isBlank d := by
  rw [← isBlank_lower c, same, isBlank_lower]

/-- Nor with dots. -/
theorem lower_eq_dot_iff : lower c = '.' ↔ c = '.' := by
  rcases lower_cases c with same | ⟨letter, shifted⟩
  · rw [same]
  · constructor
    · intro is
      rw [is] at shifted
      have dot : ('.' : Char).toNat = 46 := rfl
      omega
    · rintro rfl
      rfl

theorem map_lower_dropDot (cs : List Char) : (dropDot cs).map lower = dropDot (cs.map lower) := by
  match cs with
  | [] => rfl
  | c :: cs =>
    by_cases dot : c = '.'
    · rw [dot]
      rfl
    · have kept : ∀ {e : Char} (es : List Char), e ≠ '.' → dropDot (e :: es) = e :: es := by
        intro e es other
        unfold dropDot
        split
        next is => exact absurd (List.cons.inj is).1 other
        next => rfl
      rw [kept cs dot, List.map_cons, kept _ (mt lower_eq_dot_iff.1 dot)]

/-! ## Blanks -/

/-- Neither the first character nor the last one is blank. -/
def Tight (cs : List Char) : Prop :=
  (∀ c ∈ cs.head?, Text.isBlank c = false) ∧ ∀ c ∈ cs.getLast?, Text.isBlank c = false

theorem SameLetters.tight (same : SameLetters cs ds) (tight : Tight ds) : Tight cs := by
  have alike : ∀ {o p : Option Char}, o.map lower = p.map lower →
      (∀ d ∈ p, Text.isBlank d = false) → ∀ c ∈ o, Text.isBlank c = false := by
    intro o p matched none c here
    rw [here, Option.map_some] at matched
    obtain ⟨d, there, is⟩ := Option.map_eq_some_iff.1 matched.symm
    rw [isBlank_eq_of_lower_eq is.symm]
    exact none d there
  refine ⟨alike ?_ tight.1, alike ?_ tight.2⟩
  · rw [← List.head?_map, ← List.head?_map, same]
  · rw [← List.getLast?_map, ← List.getLast?_map, same]

theorem dropWhile_of_head (h : ∀ c ∈ cs.head?, Text.isBlank c = false) :
    cs.dropWhile Text.isBlank = cs := by
  cases cs with
  | nil => rfl
  | cons c cs => exact List.dropWhile_cons_of_neg (by simp [h c rfl])

theorem head_dropWhile (cs : List Char) :
    ∀ c ∈ (cs.dropWhile Text.isBlank).head?, Text.isBlank c = false := by
  intro c here
  have first := List.head?_dropWhile_not Text.isBlank cs
  rw [here] at first
  exact first

/-- What is left of a text without the blanks at its ends. -/
theorem tight_trim (s : String) : Tight (Text.trim s).toList := by
  unfold Text.trim Text.trimRight Text.trimLeft
  rw [String.toList_ofList]
  generalize left : s.toList.dropWhile Text.isBlank = cs
  refine ⟨?_, ?_⟩
  · -- cutting at the back leaves the first character, if it leaves any
    intro c here
    have front : (cs.reverse.dropWhile Text.isBlank).reverse <+: cs :=
      List.reverse_suffix.1 (by simpa using List.dropWhile_suffix (l := cs.reverse) Text.isBlank)
    have first : cs.head? = some c := by
      obtain ⟨rest, whole⟩ := front
      rw [← whole, List.head?_append, here]
      rfl
    exact head_dropWhile s.toList c (left ▸ first)
  · rw [List.getLast?_reverse]
    exact head_dropWhile cs.reverse

/-- Blanks around something else are what trimming takes away. -/
theorem trim_surrounded (blank : ∀ c ∈ before, Text.isBlank c = true)
    (blank' : ∀ c ∈ after, Text.isBlank c = true) (tight : Tight cs) :
    Text.trim (String.ofList (before ++ cs ++ after)) = String.ofList cs := by
  unfold Text.trim Text.trimRight Text.trimLeft
  rw [String.toList_ofList, List.append_assoc, List.dropWhile_append_of_pos blank]
  have back : ∀ c ∈ after.reverse, Text.isBlank c = true :=
    fun c inside => blank' c (List.mem_reverse.1 inside)
  cases cs with
  | nil =>
    have nothing : (after ++ []).dropWhile Text.isBlank = [] := List.dropWhile_append_of_pos blank'
    rw [List.append_nil] at nothing
    rw [List.nil_append, nothing]
    rfl
  | cons c cs =>
    have first : ((c :: cs) ++ after).dropWhile Text.isBlank = (c :: cs) ++ after :=
      dropWhile_of_head (by simpa using tight.1)
    have last : (c :: cs).reverse.dropWhile Text.isBlank = (c :: cs).reverse :=
      dropWhile_of_head (by rw [List.head?_reverse]; exact tight.2)
    rw [first, List.reverse_append, List.dropWhile_append_of_pos back, last, List.reverse_reverse]

/-! ## Spellings -/

/-- The names of a language as they are written where it is registered. -/
def written (l : Language) : List String := l.id :: (l.aliases ++ l.extensions)

/-- The identifier is a way of writing the name: its characters without the blanks at its ends, with
ASCII letters in either case, with any blanks around them, and with a dot before them unless there is
one already. -/
inductive Writes (name : String) : String → Prop where
  | plain {before cs after : List Char} (blank : ∀ c ∈ before, Text.isBlank c = true)
    (blank' : ∀ c ∈ after, Text.isBlank c = true)
    (same : SameLetters cs (Text.trim name).toList) :
    Writes name (String.ofList (before ++ cs ++ after))
  | dotted {before cs after : List Char} (blank : ∀ c ∈ before, Text.isBlank c = true)
    (blank' : ∀ c ∈ after, Text.isBlank c = true)
    (same : SameLetters cs (Text.trim name).toList)
    (bare : (Text.trim name).toList.head? ≠ some '.') :
    Writes name (String.ofList (before ++ '.' :: cs ++ after))

/-- The normal form is read off the letters in lower case. -/
theorem normalize_eq (name : String) :
    normalize name = String.ofList (dropDot ((Text.trim name).toList.map lower)) := by
  unfold normalize
  rw [map_lower_dropDot]

/-- However a name is written, its normal form is the same. -/
theorem normalize_of_writes (h : Writes name identifier) : normalize identifier = normalize name := by
  rw [normalize_eq, normalize_eq]
  cases h with
  | plain blank blank' same =>
    rw [trim_surrounded blank blank' (same.tight (tight_trim name)), String.toList_ofList, same]
  | @dotted before cs after blank blank' same bare =>
    have tight : Tight cs := same.tight (tight_trim name)
    have dotted : Tight ('.' :: cs) := by
      refine ⟨by simp [Text.isBlank], ?_⟩
      cases cs with
      | nil => simp [Text.isBlank]
      | cons c cs => simpa using tight.2
    have undotted : dropDot ((Text.trim name).toList.map lower) = (Text.trim name).toList.map lower := by
      unfold dropDot
      split
      next rest first =>
        have dot : (Text.trim name).toList.head?.map lower = some '.' := by
          rw [← List.head?_map, first]
          rfl
        obtain ⟨c, here, is⟩ := Option.map_eq_some_iff.1 dot
        rw [lower_eq_dot_iff.1 is] at here
        exact absurd here bare
      next => rfl
    rw [trim_surrounded blank blank' dotted, String.toList_ofList, undotted, ← same]
    rfl

end SnippetRunner.Language
