import Mathlib.Data.List.Basic
import SnippetRunner.Path

/-!
# Paths and their components

Three things live here. A path is what stands between its separators, joined again, so that the path
above another one has all its components but the last. A path is absolute by its first component. And
in a list of paths that cover each other, what is broad stays: whatever takes its place is broad too.
-/

namespace SnippetRunner.Path

variable {bs : List UInt8} {part : List UInt8} {parts : List (List UInt8)} {p q : Path}

/-! ## Separators -/

theorem split_cons (b : UInt8) (bs : List UInt8) :
    split (b :: bs) = if b = separator then [] :: split bs else
      match split bs with
      | [] => [[b]]
      | p :: ps => (b :: p) :: ps :=
  rfl

/-- Cutting at separators is the cutting of lists. -/
theorem split_eq_splitOn (bs : List UInt8) : split bs = bs.splitOn separator := by
  induction bs with
  | nil => rfl
  | cons b bs ih =>
    rw [split_cons, List.splitOn, List.splitOnP_cons_eq_if_modifyHead, ← List.splitOn, ← ih]
    by_cases ends : b = separator
    · simp [ends]
    · have nonempty : split bs ≠ [] := by
        rw [ih]
        exact List.splitOnP_ne_nil _ _
      obtain ⟨p, ps, first⟩ := List.exists_cons_of_ne_nil nonempty
      simp [ends, first]

theorem split_ne_nil (bs : List UInt8) : split bs ≠ [] := by
  rw [split_eq_splitOn]
  exact List.splitOnP_ne_nil _ _

/-- The parts between the separators, joined again. -/
theorem join_split (bs : List UInt8) : join (split bs) = bs := by
  rw [split_eq_splitOn]
  exact List.intercalate_splitOn separator

/-- Parts without a separator, joined and cut again. -/
theorem split_join (clean : ∀ part ∈ parts, separator ∉ part) (nonempty : parts ≠ []) :
    split (join parts) = parts := by
  rw [split_eq_splitOn]
  exact List.splitOn_intercalate separator clean nonempty

/-- A byte that is no separator belongs to the first part. -/
theorem split_cons_of_ne {b : UInt8} (other : b ≠ separator) (first : split bs = part :: parts) :
    split (b :: bs) = (b :: part) :: parts := by
  rw [split_cons, if_neg other, first]

theorem split_separator (bs : List UInt8) : split (separator :: bs) = [] :: split bs := by
  rw [split_cons, if_pos rfl]

/-- No part holds a separator. -/
theorem separator_not_mem (h : part ∈ split bs) : separator ∉ part := by
  induction bs generalizing part with
  | nil =>
    obtain rfl : part = [] := List.mem_singleton.1 h
    exact List.not_mem_nil
  | cons b bs ih =>
    by_cases ends : b = separator
    · rw [ends, split_separator] at h
      rcases List.mem_cons.1 h with rfl | h
      · exact List.not_mem_nil
      · exact ih h
    · obtain ⟨p, ps, first⟩ := List.exists_cons_of_ne_nil (split_ne_nil bs)
      rw [split_cons_of_ne ends first] at h
      rcases List.mem_cons.1 h with rfl | h
      · intro inside
        rcases List.mem_cons.1 inside with is | inside
        · exact ends is.symm
        · exact ih (first ▸ List.mem_cons_self ..) inside
      · exact ih (first ▸ List.mem_cons_of_mem _ h)

theorem join_cons_cons (part next : List UInt8) (parts : List (List UInt8)) :
    join (part :: next :: parts) = part ++ separator :: join (next :: parts) := by
  simp [join, List.intercalate]

/-- The first of some parts, joined, are where all of them begin. -/
theorem join_prefix (parts more : List (List UInt8)) : join parts <+: join (parts ++ more) := by
  induction parts with
  | nil => exact List.nil_prefix
  | cons part parts ih =>
    cases parts with
    | nil =>
      cases more with
      | nil => exact List.prefix_refl _
      | cons next more =>
        rw [List.singleton_append, join_cons_cons]
        simp [join, List.intercalate]
    | cons next parts =>
      rw [List.cons_append, List.cons_append, join_cons_cons, join_cons_cons]
      exact (List.prefix_append_right_inj _).2 ((List.cons_prefix_cons).2 ⟨rfl, ih⟩)

/-! ## The leading root or dot -/

/-- A path is absolute if its first part is empty and not all of it. -/
theorem isAbsolute_iff_split :
    isAbsolute ⟨bs⟩ = true ↔ ∃ rest, rest ≠ [] ∧ split bs = [] :: rest := by
  cases bs with
  | nil =>
    have relative : isAbsolute ⟨[]⟩ = false := rfl
    have empty : split [] = [[]] := rfl
    rw [relative, empty]
    constructor
    · intro h
      cases h
    · rintro ⟨rest, nonempty, h⟩
      exact absurd (List.cons.inj h).2.symm nonempty
  | cons b bs =>
    have head : isAbsolute ⟨b :: bs⟩ = true ↔ b = separator := by simp [isAbsolute]
    rw [head]
    constructor
    · rintro rfl
      exact ⟨split bs, split_ne_nil bs, split_separator bs⟩
    · rintro ⟨rest, -, h⟩
      by_contra other
      obtain ⟨p, ps, first⟩ := List.exists_cons_of_ne_nil (split_ne_nil bs)
      rw [split_cons_of_ne other first] at h
      cases h

/-- It starts with a dot that counts if its first part is a dot. -/
theorem startsCurrent_iff_split : startsCurrent ⟨bs⟩ = true ↔ ∃ rest, split bs = [dot] :: rest := by
  have apart : dot ≠ separator := by decide
  match bs with
  | [] => simp [startsCurrent, split]
  | [b] =>
    have head : startsCurrent ⟨[b]⟩ = true ↔ b = dot := by simp [startsCurrent]
    rw [head]
    constructor
    · rintro rfl
      exact ⟨[], rfl⟩
    · rintro ⟨rest, h⟩
      by_cases ends : b = separator
      · rw [ends, split_separator] at h
        cases h
      · have empty : split [] = [[]] := rfl
        rw [split_cons_of_ne ends empty] at h
        cases h
        rfl
  | b :: c :: cs =>
    have head : startsCurrent ⟨b :: c :: cs⟩ = true ↔ b = dot ∧ c = separator := by
      simp [startsCurrent]
    rw [head]
    constructor
    · rintro ⟨rfl, rfl⟩
      exact ⟨split cs, split_cons_of_ne apart (split_separator cs)⟩
    · rintro ⟨rest, h⟩
      by_cases ends : b = separator
      · rw [ends, split_separator] at h
        cases h
      · by_cases next : c = separator
        · rw [next, split_cons_of_ne ends (split_separator cs)] at h
          cases h
          exact ⟨rfl, next⟩
        · obtain ⟨p, ps, first⟩ := List.exists_cons_of_ne_nil (split_ne_nil cs)
          rw [split_cons_of_ne ends (split_cons_of_ne next first)] at h
          cases h

/-- What stands before the parts of the body: the root, a dot, or nothing. -/
def front (p : Path) : List Component :=
  if p.isAbsolute then [.root] else if p.startsCurrent then [.current] else []

/-- The parts of the body that are components. -/
def named (p : Path) : List (List UInt8) := p.bodyParts.filter fun part => !isIdle part

theorem components_eq (p : Path) : p.components = p.front ++ p.named.map componentOf := rfl

/-- A path is its leading root or dot, and its parts after that. -/
theorem bytes_eq (p : Path) : p.bytes = p.head ++ join p.bodyParts := by
  have begins : p.bytes.take p.head.length = p.head := by
    obtain ⟨bytes⟩ := p
    unfold head
    split
    next absolute =>
      cases bytes with
      | nil => cases absolute
      | cons b bytes => simpa [isAbsolute] using absolute
    next =>
      split
      next current =>
        match bytes, current with
        | [b], current => simpa [startsCurrent] using current
        | b :: c :: bytes, current =>
          have dotted : b = dot ∧ c = separator := by simpa [startsCurrent] using current
          simp [dotted.1]
      next => rfl
  unfold bodyParts
  rw [join_split]
  conv_lhs => rw [← List.take_append_drop p.head.length p.bytes, begins]

/-- A path that goes on behind the root. -/
theorem front_root (clean : ∀ part ∈ parts, separator ∉ part) (nonempty : parts ≠ []) :
    front ⟨separator :: join parts⟩ = [.root] ∧ bodyParts ⟨separator :: join parts⟩ = parts :=
  ⟨rfl, split_join clean nonempty⟩

/-- A path that goes on behind a dot. -/
theorem front_dot (clean : ∀ part ∈ parts, separator ∉ part) (nonempty : parts ≠ []) :
    front ⟨dot :: separator :: join parts⟩ = [.current] ∧
      bodyParts ⟨dot :: separator :: join parts⟩ = [] :: parts := by
  refine ⟨rfl, ?_⟩
  show split (separator :: join parts) = _
  rw [split_separator, split_join clean nonempty]

/-- A path that begins with a name. -/
theorem front_name (clean : ∀ each ∈ part :: parts, separator ∉ each) (name : isIdle part = false) :
    front ⟨join (part :: parts)⟩ = [] ∧ bodyParts ⟨join (part :: parts)⟩ = part :: parts := by
  have cut := split_join clean (List.cons_ne_nil part parts)
  have relative : isAbsolute ⟨join (part :: parts)⟩ = false := by
    rw [Bool.eq_false_iff, Ne, isAbsolute_iff_split]
    rintro ⟨rest, -, h⟩
    rw [cut] at h
    cases h
    exact absurd name (by decide)
  have noDot : startsCurrent ⟨join (part :: parts)⟩ = false := by
    rw [Bool.eq_false_iff, Ne, startsCurrent_iff_split]
    rintro ⟨rest, h⟩
    rw [cut] at h
    cases h
    exact absurd name (by decide)
  constructor
  · simp [front, relative, noDot]
  · simp [bodyParts, head, relative, noDot, cut]

/-- A path that starts with a dot is relative. -/
theorem isAbsolute_of_startsCurrent (current : p.startsCurrent = true) : p.isAbsolute = false := by
  obtain ⟨bytes⟩ := p
  obtain ⟨rest, cut⟩ := startsCurrent_iff_split.1 current
  rw [Bool.eq_false_iff, Ne, isAbsolute_iff_split]
  rintro ⟨rest, -, h⟩
  rw [cut] at h
  cases h

/-- A separator follows the dot, so the body begins with an empty part. -/
theorem bodyParts_of_startsCurrent (current : p.startsCurrent = true) :
    ∃ rest, p.bodyParts = [] :: rest := by
  have dotted : p.head = [dot] := by simp [head, isAbsolute_of_startsCurrent current, current]
  obtain ⟨bytes⟩ := p
  obtain ⟨rest, cut⟩ := startsCurrent_iff_split.1 current
  have spelled := join_split bytes
  rw [cut] at spelled
  unfold bodyParts
  rw [dotted, ← spelled]
  cases rest with
  | nil => exact ⟨[], rfl⟩
  | cons next rest =>
    rw [join_cons_cons]
    exact ⟨_, split_separator _⟩

/-- A path that begins with neither the root nor a dot begins with a name, or with nothing. -/
theorem isIdle_of_split_cons (relative : isAbsolute ⟨bs⟩ = false) (noDot : startsCurrent ⟨bs⟩ = false)
    (cut : split bs = part :: parts) (more : part = [] → parts ≠ []) : isIdle part = false := by
  rw [Bool.eq_false_iff]
  intro idle
  have which : part = [] ∨ part = [dot] := by simpa [isIdle] using idle
  rcases which with rfl | rfl
  · have absolute : isAbsolute ⟨bs⟩ = true := isAbsolute_iff_split.2 ⟨parts, more rfl, cut⟩
    rw [relative] at absolute
    cases absolute
  · have current : startsCurrent ⟨bs⟩ = true := startsCurrent_iff_split.2 ⟨parts, cut⟩
    rw [noDot] at current
    cases current

/-- The path that a body spells behind the head of another path begins as that one does, if the body
begins as the other one's body and is not idle throughout. -/
theorem front_of_prefix {kept : List (List UInt8)} (first : kept <+: p.bodyParts)
    (visible : ∃ part ∈ kept, isIdle part = false) :
    front ⟨p.head ++ join kept⟩ = p.front ∧ bodyParts ⟨p.head ++ join kept⟩ = kept := by
  have clean : ∀ part ∈ kept, separator ∉ part := fun part inside =>
    separator_not_mem (first.subset inside)
  obtain ⟨part, later, rfl⟩ : ∃ part later, kept = part :: later := by
    obtain ⟨name, inside, -⟩ := visible
    exact List.exists_cons_of_ne_nil (List.ne_nil_of_mem inside)
  -- an empty part alone would be idle
  have more : part = [] → later ≠ [] := by
    rintro rfl rfl
    obtain ⟨name, inside, notIdle⟩ := visible
    rw [List.mem_singleton.1 inside] at notIdle
    exact absurd notIdle (by decide)
  cases absolute : p.isAbsolute with
  | true =>
    have root : p.head = [separator] := by simp [head, absolute]
    have before : p.front = [.root] := by simp [front, absolute]
    rw [root, before]
    exact front_root clean (List.cons_ne_nil part later)
  | false =>
    cases current : p.startsCurrent with
    | true =>
      have dotted : p.head = [dot] := by simp [head, absolute, current]
      have before : p.front = [.current] := by simp [front, absolute, current]
      obtain ⟨rest, body⟩ := bodyParts_of_startsCurrent current
      rw [body, List.cons_prefix_cons] at first
      obtain ⟨rfl, -⟩ := first
      obtain ⟨next, last, rfl⟩ := List.exists_cons_of_ne_nil (more rfl)
      rw [dotted, before, join_cons_cons]
      exact front_dot (fun part inside => clean part (List.mem_cons_of_mem _ inside)) (more rfl)
    | false =>
      have bare : p.head = [] := by simp [head, absolute, current]
      have before : p.front = [] := by simp [front, absolute, current]
      obtain ⟨rest, whole⟩ := first
      have body : split p.bytes = p.bodyParts := by
        unfold bodyParts
        rw [bare]
        rfl
      rw [← whole, List.cons_append] at body
      have name := isIdle_of_split_cons absolute current body fun empty nothing =>
        more empty (List.append_eq_nil_iff.1 nothing).1
      rw [bare, before]
      exact front_name clean name

/-! ## The path above -/

/-- What is left out at one end is idle. -/
theorem filter_dropWhile_isIdle (parts : List (List UInt8)) :
    (parts.dropWhile isIdle).filter (fun part => !isIdle part) =
      parts.filter fun part => !isIdle part := by
  induction parts with
  | nil => rfl
  | cons part parts ih =>
    by_cases idle : isIdle part = true
    · rw [List.dropWhile_cons_of_pos idle, ih, List.filter_cons_of_neg (by simp [idle])]
    · rw [List.dropWhile_cons_of_neg idle]

/-- The components of the body, if something stands above the last one of them. -/
theorem named_eq_concat {last : List UInt8} {rest : List (List UInt8)}
    (found : p.bodyParts.reverse.dropWhile isIdle = last :: rest) :
    p.named = (rest.dropWhile isIdle).reverse.filter (fun part => !isIdle part) ++ [last] := by
  have notIdle : isIdle last = false := by
    have first := List.head_dropWhile_not isIdle (l := p.bodyParts.reverse) (by simp [found])
    simpa [found] using first
  have backwards := filter_dropWhile_isIdle p.bodyParts.reverse
  rw [found, List.filter_cons_of_pos (by simp [notIdle]), List.filter_reverse] at backwards
  unfold named
  rw [List.filter_reverse, filter_dropWhile_isIdle, ← List.reverse_cons, backwards,
    List.reverse_reverse]

/-- There are none where every part is idle. -/
theorem named_eq_nil (found : p.bodyParts.reverse.dropWhile isIdle = []) : p.named = [] := by
  have backwards := filter_dropWhile_isIdle p.bodyParts.reverse
  rw [found, List.filter_reverse] at backwards
  unfold named
  rw [← List.reverse_reverse (List.filter _ _), ← backwards]
  rfl

theorem componentOf_ne_root (part : List UInt8) : componentOf part ≠ .root := by
  unfold componentOf
  split <;> simp

/-- The leading root or dot by itself. -/
theorem components_head (p : Path) : components ⟨p.head⟩ = p.front := by
  unfold head front
  split
  · rfl
  · split <;> rfl

theorem front_of_startsCurrent (current : p.startsCurrent = true) : p.front = [.current] := by
  simp [front, isAbsolute_of_startsCurrent current, current]

/-- The path above another one has its components but for the last. -/
theorem components_of_parent? (h : p.parent? = some q) : q.components = p.components.dropLast := by
  unfold parent? at h
  split at h
  next last rest found =>
    obtain rfl := Option.some.inj h
    have concat := named_eq_concat found
    have whole : p.components.dropLast =
        p.front ++ ((rest.dropWhile isIdle).reverse.filter fun part => !isIdle part).map componentOf := by
      rw [components_eq, concat, List.map_append, ← List.append_assoc]
      exact List.dropLast_concat
    rw [whole]
    cases kept : rest.dropWhile isIdle with
    | nil =>
      show components ⟨p.head ++ []⟩ = p.front ++ []
      rw [List.append_nil, List.append_nil, components_head]
    | cons part above =>
      have inside : part ∈ (part :: above).reverse := by simp
      have notIdle : isIdle part = false := by
        have first := List.head_dropWhile_not isIdle (l := rest) (by simp [kept])
        simpa [kept] using first
      have first : (part :: above).reverse <+: p.bodyParts := by
        have above := (List.dropWhile_suffix (l := rest) isIdle).trans
          ((List.suffix_cons last rest).trans (found ▸ List.dropWhile_suffix isIdle))
        rw [kept] at above
        exact List.reverse_suffix.1 (by simpa using above)
      obtain ⟨begins, body⟩ := front_of_prefix first ⟨part, inside, notIdle⟩
      rw [components_eq, begins]
      unfold named
      rw [body]
  next found =>
    obtain ⟨current, rfl⟩ := Option.ite_none_right_eq_some.1 h |>.imp_right Option.some.inj
    rw [components_eq p, named_eq_nil found, front_of_startsCurrent current]
    rfl

/-- What is left of a path without its last component, as it is spelled. -/
theorem exists_kept_of_parent? (h : p.parent? = some q) (absolute : p.isAbsolute = true) :
    ∃ kept more, p.bodyParts = kept ++ more ∧ (∃ part ∈ more, isIdle part = false) ∧
      q = ⟨p.head ++ join kept⟩ := by
  unfold parent? at h
  split at h
  next last rest found =>
    have notIdle : isIdle last = false := by
      have first := List.head_dropWhile_not isIdle (l := p.bodyParts.reverse) (by simp [found])
      simpa [found] using first
    obtain ⟨later, whole⟩ : (last :: rest) <:+ p.bodyParts.reverse :=
      found ▸ List.dropWhile_suffix isIdle
    obtain ⟨between, all⟩ : rest.dropWhile isIdle <:+ rest := List.dropWhile_suffix isIdle
    generalize rest.dropWhile isIdle = kept at all h
    refine ⟨kept.reverse, between.reverse ++ last :: later.reverse, ?_, ⟨last, by simp, notIdle⟩,
      (Option.some.inj h).symm⟩
    -- read from the end: what comes after the last component, itself, idle parts, and what is kept
    have backwards := congrArg List.reverse whole
    rw [List.reverse_reverse] at backwards
    rw [← backwards, ← all]
    simp
  next =>
    have current := (Option.ite_none_right_eq_some.1 h).1
    rw [isAbsolute_of_startsCurrent current] at absolute
    cases absolute

/-- An absolute path is its parts behind a separator. -/
theorem bytes_of_absolute (absolute : p.isAbsolute = true) :
    p.bytes = separator :: join p.bodyParts := by
  have whole := bytes_eq p
  simpa [head, absolute] using whole

/-- The path above an absolute one is absolute and spelled as that one begins. -/
theorem prefix_of_parent? (h : p.parent? = some q) (absolute : p.isAbsolute = true) :
    q.isAbsolute = true ∧ q.bytes <+: p.bytes := by
  obtain ⟨kept, more, whole, -, rfl⟩ := exists_kept_of_parent? h absolute
  have root : p.head = [separator] := by simp [head, absolute]
  rw [root, bytes_of_absolute absolute, whole]
  exact ⟨rfl, List.cons_prefix_cons.2 ⟨rfl, join_prefix kept more⟩⟩

/-- Nothing is above the root and the empty path. -/
theorem parent?_eq_none_iff : p.parent? = none ↔ p.components = [] ∨ p.components = [.root] := by
  unfold parent?
  split
  next last rest found =>
    have named := named_eq_concat found
    simp only [reduceCtorEq, false_iff, not_or]
    rw [components_eq, named]
    refine ⟨by simp, fun h => ?_⟩
    have same := congrArg List.getLast? h
    simp [componentOf_ne_root] at same
  next found =>
    rw [components_eq, named_eq_nil found]
    by_cases current : p.startsCurrent = true
    · simp [current, front_of_startsCurrent current]
    · unfold front
      by_cases absolute : p.isAbsolute = true <;> simp [current, absolute]

/-! ## Paths seen from others -/

/-- The parts before a separator, and those behind it. -/
theorem split_append_separator (as bs : List UInt8) :
    split (as ++ separator :: bs) = split as ++ split bs := by
  induction as with
  | nil => exact split_separator bs
  | cons b as ih =>
    by_cases ends : b = separator
    · rw [ends, List.cons_append, split_separator, ih, split_separator, List.cons_append]
    · obtain ⟨part, parts, first⟩ := List.exists_cons_of_ne_nil (split_ne_nil as)
      rw [first, List.cons_append] at ih
      rw [List.cons_append, split_cons_of_ne ends ih, split_cons_of_ne ends first]
      rfl

/-- What is not idle among all parts of a path is in its body. -/
theorem named_eq_filter (p : Path) : p.named = (split p.bytes).filter fun part => !isIdle part := by
  have body : split (join p.bodyParts) = p.bodyParts := by
    unfold bodyParts
    rw [join_split]
  have whole := bytes_eq p
  unfold named
  by_cases absolute : p.isAbsolute = true
  · rw [bytes_of_absolute absolute, split_separator, body]
    rfl
  by_cases current : p.startsCurrent = true
  · -- the dot is idle, and so is what the separator behind it ends
    obtain ⟨rest, first⟩ := bodyParts_of_startsCurrent current
    simp only [head, absolute, current, if_false, if_true, Bool.false_eq_true] at whole
    rw [whole, List.singleton_append, split_cons_of_ne (by decide) (body.trans first), first]
    rfl
  · simp only [head, absolute, current, if_false, Bool.false_eq_true] at whole
    rw [whole, List.nil_append, body]

theorem mem_components_iff {c : Component} :
    c ∈ p.components ↔ c ∈ p.front ∨ ∃ part ∈ split p.bytes, isIdle part = false ∧ componentOf part = c := by
  rw [components_eq, named_eq_filter]
  simp only [List.mem_append, List.mem_map, List.mem_filter, Bool.not_eq_true', and_assoc]

/-- A path leads upwards somewhere if two dots stand between its separators. -/
theorem parent_mem_components_iff : .parent ∈ p.components ↔ [dot, dot] ∈ split p.bytes := by
  rw [mem_components_iff]
  constructor
  · rintro (first | ⟨part, inside, -, up⟩)
    · unfold front at first
      split at first
      · simp at first
      · split at first <;> simp at first
    · unfold componentOf at up
      split at up
      next dots => exact dots ▸ inside
      next => cases up
  · exact fun inside => .inr ⟨_, inside, by decide, if_pos rfl⟩

theorem root_not_mem_components (relative : p.isAbsolute = false) : .root ∉ p.components := by
  rw [mem_components_iff]
  rintro (first | ⟨part, -, -, top⟩)
  · unfold front at first
    rw [relative] at first
    simp only [Bool.false_eq_true, if_false] at first
    split at first <;> simp at first
  · exact componentOf_ne_root part top

/-- What stands behind a separator adds the components of its body. -/
theorem components_append_separator (as bs : List UInt8) :
    components ⟨as ++ separator :: bs⟩ =
      components ⟨as ++ [separator]⟩ ++ (named ⟨bs⟩).map componentOf := by
  have begins : front ⟨as ++ separator :: bs⟩ = front ⟨as ++ [separator]⟩ := by
    match as with
    | [] => simp [front, isAbsolute]
    | [b] => simp [front, isAbsolute, startsCurrent]
    | b :: c :: as => simp [front, isAbsolute, startsCurrent]
  rw [components_eq, components_eq, begins, named_eq_filter, named_eq_filter, named_eq_filter,
    split_append_separator, split_append_separator, List.filter_append, List.filter_append,
    List.map_append, List.map_append]
  show _ = _ ++ (_ ++ []) ++ _
  rw [List.append_nil, List.append_assoc]

/-- A separator at the end makes no difference, but for the root. -/
theorem components_concat_separator {as : List UInt8} (some : as ≠ []) :
    components ⟨as ++ [separator]⟩ = components ⟨as⟩ := by
  have begins : front ⟨as ++ [separator]⟩ = front ⟨as⟩ := by
    match as, some with
    | [b], _ => simp [front, isAbsolute, startsCurrent]
    | b :: c :: as, _ => simp [front, isAbsolute, startsCurrent]
  rw [components_eq, components_eq, begins, named_eq_filter, named_eq_filter,
    split_append_separator, List.filter_append, List.map_append]
  show _ ++ (_ ++ []) = _
  rw [List.append_nil]

/-- A relative path adds components of its own to those of the path that it is seen from. -/
theorem components_append (relative : q.isAbsolute = false) :
    ∃ more, (p.append q).components = p.components ++ more ∧ ∀ c ∈ more, c ∈ q.components := by
  have own : ∀ c ∈ q.named.map componentOf, c ∈ q.components := fun c inside =>
    List.mem_append_right _ inside
  obtain ⟨as⟩ := p
  obtain ⟨bs⟩ := q
  unfold append
  rw [relative]
  simp only [Bool.false_eq_true, if_false]
  split
  next ends =>
    rcases ends with rfl | ends
    · exact ⟨components ⟨bs⟩, rfl, fun c inside => inside⟩
    · obtain ⟨as, rfl⟩ := List.getLast?_eq_some_iff.1 ends
      refine ⟨_, ?_, own⟩
      rw [← components_append_separator, List.append_assoc]
      rfl
  next inner =>
    refine ⟨_, ?_, own⟩
    rw [components_append_separator, components_concat_separator fun empty => inner (.inl empty)]

/-! ## Absolute paths -/

/-- A path is absolute by its first component. -/
theorem isAbsolute_iff : p.isAbsolute = true ↔ p.components.head? = some .root := by
  rw [components_eq]
  unfold front
  by_cases absolute : p.isAbsolute = true
  · simp [absolute]
  · by_cases current : p.startsCurrent = true
    · simp [absolute, current]
    · simp [absolute, current, componentOf_ne_root]

theorem isAbsolute_eq_false_iff : p.isAbsolute = false ↔ p.components.head? ≠ some .root := by
  rw [Bool.eq_false_iff, Ne, isAbsolute_iff]

/-! ## Sorted sets -/

theorem eq_or_mem_of_mem_insertSorted {ps : List Path} (h : q ∈ insertSorted p ps) :
    q = p ∨ q ∈ ps := by
  induction ps with
  | nil => exact .inl (List.mem_singleton.1 h)
  | cons r ps ih =>
    unfold insertSorted at h
    split at h
    · exact .inr h
    · split at h
      · exact List.mem_cons.1 h
      · rcases List.mem_cons.1 h with rfl | h
        · exact .inr (List.mem_cons_self ..)
        · exact (ih h).imp_right (List.mem_cons_of_mem _)

/-- The sorted set of some paths holds nothing but these. -/
theorem mem_of_mem_sortUnique {ps : List Path} (h : q ∈ sortUnique ps) : q ∈ ps := by
  have all : ∀ (ps acc : List Path), q ∈ ps.foldl (fun acc p => insertSorted p acc) acc →
      q ∈ ps ∨ q ∈ acc := by
    intro ps
    induction ps with
    | nil => exact fun _ => .inr
    | cons p ps ih =>
      intro acc inside
      rcases ih _ inside with later | first
      · exact .inl (List.mem_cons_of_mem _ later)
      · rcases eq_or_mem_of_mem_insertSorted first with rfl | before
        · exact .inl (List.mem_cons_self ..)
        · exact .inr before
  exact (all ps [] h).resolve_right List.not_mem_nil

theorem mem_insertSorted_of_mem {ps : List Path} (h : q ∈ ps) : q ∈ insertSorted p ps := by
  induction ps with
  | nil => cases h
  | cons r ps ih =>
    unfold insertSorted
    split
    · exact h
    · split
      · exact List.mem_cons_of_mem _ h
      · rcases List.mem_cons.1 h with rfl | h
        · exact List.mem_cons_self ..
        · exact List.mem_cons_of_mem _ (ih h)

/-- A path that is not there yet comes in. -/
theorem mem_insertSorted_self {ps : List Path} (absent : ∀ r ∈ ps, p.same r = false) :
    p ∈ insertSorted p ps := by
  induction ps with
  | nil => exact List.mem_singleton_self p
  | cons r ps ih =>
    have other : p.same r = false := absent r (List.mem_cons_self ..)
    unfold insertSorted
    rw [other]
    simp only [Bool.false_eq_true, if_false]
    split
    · exact List.mem_cons_self ..
    · exact List.mem_cons_of_mem _ (ih fun r inside => absent r (List.mem_cons_of_mem _ inside))

/-- The sorted set of some paths holds each of them as it is first spelled. -/
theorem mem_sortUnique_of_find? {ps : List Path} (first : ps.find? p.same = some q) :
    q ∈ sortUnique ps := by
  have stays : ∀ (ps acc : List Path), q ∈ acc → q ∈ ps.foldl (fun acc p => insertSorted p acc) acc := by
    intro ps
    induction ps with
    | nil => exact fun _ => id
    | cons r ps ih => exact fun acc inside => ih _ (mem_insertSorted_of_mem inside)
  -- no spelling of the path is in the set until the first one is met
  have comes : ∀ acc : List Path, (∀ r ∈ acc, p.same r = false) →
      q ∈ ps.foldl (fun acc p => insertSorted p acc) acc := by
    induction ps with
    | nil => cases first
    | cons r ps ih =>
      intro acc absent
      rw [List.foldl_cons]
      by_cases same : p.same r = true
      · rw [List.find?_cons_of_pos same] at first
        cases first
        refine stays ps _ (mem_insertSorted_self fun s inside => ?_)
        have other := absent s inside
        unfold Path.same at same other ⊢
        rwa [← beq_iff_eq.1 same]
      · rw [List.find?_cons_of_neg same] at first
        refine ih first _ fun s inside => ?_
        rcases eq_or_mem_of_mem_insertSorted inside with rfl | before
        · simpa using same
        · exact absent s before
  exact comes [] (List.forall_mem_nil _)

/-! ## Broad paths -/

/-- The root directory, or a path that means something else in every working directory. -/
def IsBroad (p : Path) : Prop := p.components = [.root] ∨ p.isAbsolute = false

instance (p : Path) : Decidable p.IsBroad := inferInstanceAs (Decidable (_ ∨ _))

/-- What covers a broad path is broad. -/
theorem IsBroad.of_startsWith (broad : p.IsBroad) (h : p.startsWith q = true) : q.IsBroad := by
  have covers : q.components <+: p.components := List.isPrefixOf_iff_prefix.1 h
  rcases broad with root | relative
  · rw [root] at covers
    rcases List.prefix_cons_iff.1 covers with empty | ⟨rest, root, nothing⟩
    · exact .inr (isAbsolute_eq_false_iff.2 (by simp [empty]))
    · rw [List.prefix_nil.1 nothing] at root
      exact .inl root
  · refine .inr (isAbsolute_eq_false_iff.2 fun begins => ?_)
    obtain ⟨rest, whole⟩ := covers
    apply isAbsolute_eq_false_iff.1 relative
    rw [← whole, List.head?_append, begins]
    rfl

variable {cover ps : List Path}

/-- One path more brings in something broad if it is broad itself, and takes nothing broad away. -/
theorem exists_isBroad_addCover :
    (∃ e ∈ addCover cover p, e.IsBroad) ↔ (∃ e ∈ cover, e.IsBroad) ∨ p.IsBroad := by
  unfold addCover
  split
  next covered =>
    obtain ⟨q, inside, covers⟩ := List.any_eq_true.1 covered
    exact ⟨.inl, fun h => h.elim id fun broad => ⟨q, inside, broad.of_startsWith covers⟩⟩
  next =>
    constructor
    · rintro ⟨e, inside, broad⟩
      rcases List.mem_append.1 inside with inside | is
      · exact .inl ⟨e, (List.mem_filter.1 inside).1, broad⟩
      · exact .inr (List.mem_singleton.1 is ▸ broad)
    · have last : p ∈ (cover.filter fun q => !q.startsWith p) ++ [p] :=
        List.mem_append_right _ (List.mem_singleton_self p)
      rintro (⟨e, inside, broad⟩ | broad)
      · -- an entry that gives way is covered by the new one, which is broad then
        by_cases covers : e.startsWith p = true
        · exact ⟨p, last, broad.of_startsWith covers⟩
        · exact ⟨e, List.mem_append_left _ (List.mem_filter.2 ⟨inside, by simp [covers]⟩), broad⟩
      · exact ⟨p, last, broad⟩

/-- Something in a cover is broad exactly if one of the paths that it was made of is. -/
theorem exists_isBroad_foldl_addCover :
    (∃ e ∈ ps.foldl addCover cover, e.IsBroad) ↔
      (∃ e ∈ cover, e.IsBroad) ∨ ∃ p ∈ ps, p.IsBroad := by
  induction ps generalizing cover with
  | nil => simp
  | cons p ps ih =>
    rw [List.foldl_cons, ih, exists_isBroad_addCover, or_assoc]
    simp only [List.mem_cons, exists_eq_or_imp]

end SnippetRunner.Path
