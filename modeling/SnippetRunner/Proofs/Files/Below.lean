import SnippetRunner.Proofs.Files.Walking

/-!
# Paths below a directory

A path that is seen from another one is walked like that one first, and then on along its own names. Dots
make no difference to where it leads, and if nothing in its own names leads upwards, and no link stands where
it goes on, then it leads to the place that these names spell below the first one. The path above it goes on
along the same names but for the last.
-/

namespace SnippetRunner

namespace Path

variable {p q : Path}

/-- What the path above another one leaves out: the last component, and idle parts before it and behind it. -/
theorem exists_body_of_parent? (named : p.named ≠ []) (above : p.parent? = some q) :
    ∃ kept between last behind, p.bodyParts = kept ++ between ++ last :: behind ∧
      q = ⟨p.head ++ join kept⟩ ∧ isIdle last = false ∧
      (∀ part ∈ between ++ behind, isIdle part = true) ∧
      (kept ≠ [] → ∃ part ∈ kept, isIdle part = false) := by
  have first : ∀ {l part rest}, List.dropWhile isIdle l = part :: rest → isIdle part = false := by
    intro l part rest found
    have head := List.head_dropWhile_not isIdle (l := l) (by simp [found])
    simpa [found] using head
  have idle : ∀ {l} {part : List UInt8}, part ∈ List.takeWhile isIdle l → isIdle part = true := by
    intro l part inside
    exact List.all_eq_true.1 List.all_takeWhile part inside
  unfold parent? at above
  split at above
  next last rest found =>
    -- read from the end: idle parts, the last component, idle parts, and what is kept
    have whole : p.bodyParts.reverse.takeWhile isIdle ++ last :: rest = p.bodyParts.reverse := by
      rw [← found]
      exact List.takeWhile_append_dropWhile
    have more : rest.takeWhile isIdle ++ rest.dropWhile isIdle = rest :=
      List.takeWhile_append_dropWhile
    refine ⟨(rest.dropWhile isIdle).reverse, (rest.takeWhile isIdle).reverse, last,
      (p.bodyParts.reverse.takeWhile isIdle).reverse, ?_, (Option.some.inj above).symm, first found,
      ?_, fun some => ?_⟩
    · have backwards := congrArg List.reverse whole
      rw [List.reverse_reverse, List.reverse_append, List.reverse_cons] at backwards
      rw [← List.reverse_append, more, List.append_cons]
      exact backwards.symm
    · intro part inside
      rcases List.mem_append.1 inside with inside | inside
      · exact idle (List.mem_reverse.1 inside)
      · exact idle (List.mem_reverse.1 inside)
    · cases kept : rest.dropWhile isIdle with
      | nil => exact absurd (by rw [kept]; rfl) some
      | cons part parts => exact ⟨part, by simp, first kept⟩
  next found => exact absurd (named_eq_nil found) named

theorem startsCurrent_of_isAbsolute (absolute : p.isAbsolute = true) : p.startsCurrent = false := by
  rw [Bool.eq_false_iff]
  intro current
  rw [isAbsolute_of_startsCurrent current] at absolute
  cases absolute

/-- A path with a name is not empty. -/
theorem bytes_ne_nil_of_named (named : p.named ≠ []) : p.bytes ≠ [] := by
  intro empty
  apply named
  rw [named_eq_filter, empty]
  rfl

theorem components_ne_nil_of_named (named : p.named ≠ []) : p.components ≠ [] := by
  rw [components_eq]
  simp [named]

/-- Something is above a path with a name. -/
theorem exists_parent?_of_named (named : p.named ≠ []) : ∃ q, p.parent? = some q := by
  rw [← Option.ne_none_iff_exists']
  intro nothing
  rcases parent?_eq_none_iff.1 nothing with none | root
  · exact components_ne_nil_of_named named none
  · obtain ⟨part, inside⟩ := List.exists_mem_of_ne_nil _ named
    have among : componentOf part ∈ p.components := by
      rw [components_eq]
      exact List.mem_append_right _ (List.mem_map_of_mem inside)
    rw [root] at among
    exact componentOf_ne_root part (List.mem_singleton.1 among)

/-- A relative path adds its names to what it is seen from. -/
theorem components_append_named (relative : q.isAbsolute = false) (spelled : p.bytes ≠ []) :
    (p.append q).components = p.components ++ q.named.map componentOf := by
  obtain ⟨as⟩ := p
  obtain ⟨bs⟩ := q
  unfold append
  rw [relative]
  simp only [Bool.false_eq_true, if_false]
  split
  next ends =>
    obtain ⟨as, rfl⟩ := List.getLast?_eq_some_iff.1 (ends.resolve_left spelled)
    rw [← components_append_separator, List.append_assoc]
    rfl
  next => rw [components_append_separator, components_concat_separator spelled]

theorem componentOf_injective : Function.Injective componentOf := by
  intro a b same
  unfold componentOf at same
  split at same <;> split at same <;> simp_all

theorem isAbsolute_iff_front : p.isAbsolute = true ↔ p.front = [.root] := by
  unfold front
  by_cases absolute : p.isAbsolute = true
  · simp [absolute]
  · by_cases current : p.startsCurrent = true <;> simp [absolute, current]

theorem startsCurrent_iff_front : p.startsCurrent = true ↔ p.front = [.current] := by
  constructor
  · exact front_of_startsCurrent
  · intro h
    unfold front at h
    by_cases absolute : p.isAbsolute = true
    · simp [absolute] at h
    · by_cases current : p.startsCurrent = true
      · exact current
      · simp [absolute, current] at h

end Path

namespace Files.Tree

variable {t : Tree} {links : Nat} {here place between : Place} {n : Name} {ns ms rest : List Name}
  {x : Node} {p q : Path}

/-! ## The parts of a path -/

/-- The names that are no dots. -/
def undotted (ns : List Name) : List Name := ns.filter fun n => n != [Path.dot]

@[simp] theorem undotted_nil : undotted [] = [] := rfl

@[simp] theorem undotted_append (ns ms : List Name) :
    undotted (ns ++ ms) = undotted ns ++ undotted ms :=
  List.filter_append ..

@[simp] theorem undotted_dot (ns : List Name) : undotted ([Path.dot] :: ns) = undotted ns := rfl

theorem undotted_cons_of_ne (notDot : n ≠ [Path.dot]) (ns : List Name) :
    undotted (n :: ns) = n :: undotted ns :=
  List.filter_cons_of_pos (by simpa using notDot)

theorem undotted_eq_nil_iff : undotted ns = [] ↔ ∀ n ∈ ns, n = [Path.dot] := by
  simp [undotted]

/-- The parts that are no dots are the names of a path. -/
theorem undotted_parts (p : Path) : undotted (parts p) = p.named := by
  rw [Path.named_eq_filter]
  unfold undotted parts
  rw [List.filter_filter]
  refine List.filter_congr fun part _ => ?_
  unfold Path.isIdle
  rw [Bool.and_comm, Bool.not_or]
  rfl

/-- A leading dot is a part, though not of the body. -/
theorem parts_eq (p : Path) :
    parts p = (if p.startsCurrent then [[Path.dot]] else []) ++
      p.bodyParts.filter fun part => part != [] := by
  have body : Path.split (Path.join p.bodyParts) = p.bodyParts := by
    unfold Path.bodyParts
    rw [Path.join_split]
  have whole := Path.bytes_eq p
  by_cases absolute : p.isAbsolute = true
  · rw [parts_of_absolute absolute, Path.startsCurrent_of_isAbsolute absolute]
    rfl
  by_cases current : p.startsCurrent = true
  · obtain ⟨rest, first⟩ := Path.bodyParts_of_startsCurrent current
    simp only [Path.head, absolute, current, if_false, if_true, Bool.false_eq_true] at whole
    unfold parts
    rw [whole, List.singleton_append, Path.split_cons_of_ne (by decide) (body.trans first), first,
      current]
    rfl
  · simp only [Path.head, absolute, current, if_false, Bool.false_eq_true] at whole
    unfold parts
    rw [whole, List.nil_append, body]
    simp [current]

/-- A relative path goes on along its own parts. -/
theorem parts_append (relative : q.isAbsolute = false) :
    parts (p.append q) = parts p ++ parts q := by
  have empty : Path.split [] = [[]] := rfl
  obtain ⟨as⟩ := p
  obtain ⟨bs⟩ := q
  unfold Path.append parts
  rw [relative]
  simp only [Bool.false_eq_true, if_false]
  split
  next ends =>
    rcases ends with rfl | ends
    · rfl
    · obtain ⟨as, rfl⟩ := List.getLast?_eq_some_iff.1 ends
      show (Path.split (as ++ [Path.separator] ++ bs)).filter _ = _
      rw [List.append_assoc, List.singleton_append, Path.split_append_separator,
        Path.split_append_separator, List.filter_append, List.filter_append, empty]
      simp
  next => rw [Path.split_append_separator, List.filter_append]

theorem isAbsolute_append (relative : q.isAbsolute = false) (spelled : p.bytes ≠ []) :
    (p.append q).isAbsolute = p.isAbsolute := by
  obtain ⟨b, bs, first⟩ := List.exists_cons_of_ne_nil spelled
  unfold Path.append
  rw [relative]
  simp only [Bool.false_eq_true, if_false]
  split <;> simp [Path.isAbsolute, first]

/-- What the path above another one leaves out: the last name, and dots before it and behind it. -/
theorem exists_parts_of_parent? (named : p.named ≠ []) (above : p.parent? = some q) :
    ∃ dots last behind, parts p = parts q ++ (dots ++ last :: behind) ∧ last ≠ [Path.dot] ∧
      undotted dots = [] ∧ undotted behind = [] ∧ q.isAbsolute = p.isAbsolute := by
  obtain ⟨kept, between, last, behind, body, rfl, notIdle, idle, visible⟩ :=
    Path.exists_body_of_parent? named above
  have dots : ∀ l : List Name, (∀ part ∈ l, Path.isIdle part = true) →
      undotted (l.filter fun part => part != []) = [] := by
    intro l idle
    rw [undotted_eq_nil_iff]
    intro part inside
    obtain ⟨inside, notEmpty⟩ := List.mem_filter.1 inside
    have idle := idle part inside
    simp only [Path.isIdle, Bool.or_eq_true, beq_iff_eq, bne_iff_ne] at idle notEmpty
    exact idle.resolve_left notEmpty
  have lastName : last ≠ [] ∧ last ≠ [Path.dot] := by
    simpa [Path.isIdle, Bool.or_eq_false_iff] using notIdle
  -- the path above begins as this one does
  have begins : Path.front ⟨p.head ++ Path.join kept⟩ = p.front ∧
      parts ⟨p.head ++ Path.join kept⟩ =
        (if p.startsCurrent then [[Path.dot]] else []) ++ kept.filter fun part => part != [] := by
    by_cases empty : kept = []
    · subst empty
      have bare : p.head ++ Path.join [] = p.head := by simp [Path.join, List.intercalate]
      rw [bare]
      unfold Path.front Path.head
      by_cases absolute : p.isAbsolute = true
      · simp only [absolute, Path.startsCurrent_of_isAbsolute absolute]
        exact ⟨rfl, rfl⟩
      · by_cases current : p.startsCurrent = true
        · simp only [absolute, current]
          exact ⟨rfl, rfl⟩
        · simp only [absolute, current]
          exact ⟨rfl, rfl⟩
    · have first : kept <+: p.bodyParts := ⟨between ++ last :: behind, by rw [body, List.append_assoc]⟩
      obtain ⟨front, kept'⟩ := Path.front_of_prefix first (visible empty)
      refine ⟨front, ?_⟩
      rw [parts_eq, kept']
      congr 2
      rw [Path.startsCurrent_iff_front, Path.startsCurrent_iff_front, front]
  refine ⟨between.filter fun part => part != [], last, behind.filter fun part => part != [], ?_,
    lastName.2, dots _ fun part inside => idle part (List.mem_append_left _ inside),
    dots _ fun part inside => idle part (List.mem_append_right _ inside), ?_⟩
  · rw [parts_eq p, body, begins.2, List.filter_append, List.filter_append,
      List.filter_cons_of_pos (by simpa using lastName.1)]
    simp only [List.append_assoc]
  · rw [Bool.eq_iff_iff, Path.isAbsolute_iff_front, Path.isAbsolute_iff_front, begins.1]

/-! ## Walks that go on -/

namespace Walks

/-- There is one place where the walk along some names ends. -/
theorem eq (w : Walks t links here ns place) (w' : Walks t links here ns between) :
    between = place :=
  Except.ok.inj (w'.walk_eq.symm.trans w.walk_eq)

/-- From where a walk ends, more names lead on, if they need no links. -/
theorem append (w : Walks t links here ns between)
    (onward : ∀ left, Walks t left between ms place) : Walks t links here (ns ++ ms) place := by
  induction w with
  | stop => exact onward _
  | stay inside _ ih => exact .stay inside (ih onward)
  | up inside _ ih => exact .up inside (ih onward)
  | enter inside plain found solid _ ih => exact .enter inside plain found solid (ih onward)
  | follow inside plain found _ ih =>
    rw [List.cons_append]
    refine .follow inside plain found ?_
    rw [← List.append_assoc]
    exact ih onward

/-- Dots lead nowhere, as many as there are. -/
theorem of_dots (inside : t.node? here = some .directory) (dots : undotted ns = []) :
    Walks t links here ns here := by
  induction ns with
  | nil => exact .stop
  | cons n ns ih =>
    have all := undotted_eq_nil_iff.1 dots
    rw [all n (List.mem_cons_self ..)]
    exact .stay inside (ih (undotted_eq_nil_iff.2 fun m later => all m (List.mem_cons_of_mem _ later)))

/-- A path leads to a directory if its parts do: a separator at the end asks for nothing else. -/
theorem locate_eq (w : Walks t maxLinks (t.origin p) (parts p) place)
    (inside : t.node? place = some .directory) (taken : admissible p = .ok ()) :
    t.locate p = .ok (place, .directory) := by
  refine locate_eq_ok_iff.2 ⟨taken, ?_, inside⟩
  rcases names_cases p with bare | dotted
  · rw [bare]
    exact w
  · rw [dotted]
    exact w.concat_dot inside

/-- Where no link stands, and no name leads upwards, a walk leads down along the names that are no dots. -/
theorem eq_append (w : Walks t links here ns place)
    (solid : ∀ p goal, here <+: p → t.node? p ≠ some (.link goal))
    (level : [Path.dot, Path.dot] ∉ ns) :
    place = here ++ undotted ns ∧
      ∀ ks n, ks ++ [n] <+: undotted ns → t.node? (here ++ ks) = some .directory := by
  induction w with
  | stop =>
    refine ⟨(List.append_nil _).symm, fun ks n begins => ?_⟩
    exact absurd (List.prefix_nil.1 begins) (by simp)
  | stay inside _ ih => exact ih solid fun up => level (List.mem_cons_of_mem _ up)
  | up => exact absurd (List.mem_cons_self ..) level
  | @enter links here place n rest x inside plain found _ _ ih =>
    obtain ⟨is, passed⟩ := ih
      (fun p goal below => solid p goal ((List.prefix_append _ _).trans below))
      fun up => level (List.mem_cons_of_mem _ up)
    rw [undotted_cons_of_ne plain.notDot]
    refine ⟨by rw [is, List.append_assoc]; rfl, fun ks m begins => ?_⟩
    cases ks with
    | nil => rwa [List.append_nil]
    | cons k ks =>
      rw [List.cons_append] at begins
      obtain ⟨rfl, later⟩ := List.cons_prefix_cons.1 begins
      have later := passed ks m later
      rwa [List.append_assoc] at later
  | @follow links here place n rest goal _ _ found =>
    exact absurd found (solid _ goal (List.prefix_append _ _))

end Walks

end Files.Tree

end SnippetRunner
