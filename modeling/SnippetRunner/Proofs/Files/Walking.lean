import SnippetRunner.Files.Tree
import SnippetRunner.Proofs.Path

/-!
# Walks in a file tree

A path is looked up name by name. A walk that comes to its end is a `Walks`, with one way of going on for
each kind of name: a dot, two dots, something that stands under a plain name, and a link, whose own names
then come first. What holds of every path that leads somewhere follows from these: a walk passes the
directories above its end, so whatever is above a file is there, and the place where a walk ends has a path
without links, dots and doubled slashes, its canonical one, that leads to the same place.
-/

namespace SnippetRunner.Files.Tree

variable {t : Tree} {links : Nat} {here place : Place} {n : Name} {ns ms rest : List Name}
  {x : Node} {goal p q : Path}

/-- A name under which a directory can hold something. -/
structure IsPlain (n : Name) : Prop where
  notDot : n ≠ [Path.dot]
  notDots : n ≠ [Path.dot, Path.dot]
  short : n.length ≤ maxName

/-- What a walk does that comes to its end, name by name. The first argument is the number of links
that it may still follow. -/
inductive Walks (t : Tree) : Nat → Place → List Name → Place → Prop where
  | stop {links : Nat} {here : Place} : Walks t links here [] here
  /-- A dot stays in the directory. -/
  | stay {links : Nat} {here place : Place} {rest : List Name}
      (inside : t.node? here = some .directory) (onward : Walks t links here rest place) :
      Walks t links here ([Path.dot] :: rest) place
  /-- Two dots lead to the directory above. -/
  | up {links : Nat} {here place : Place} {rest : List Name}
      (inside : t.node? here = some .directory) (onward : Walks t links here.dropLast rest place) :
      Walks t links here ([Path.dot, Path.dot] :: rest) place
  /-- A name leads to what stands under it. -/
  | enter {links : Nat} {here place : Place} {n : Name} {rest : List Name} {x : Node}
      (inside : t.node? here = some .directory) (plain : IsPlain n)
      (found : t.node? (here ++ [n]) = some x) (solid : ∀ goal, x ≠ .link goal)
      (onward : Walks t links (here ++ [n]) rest place) : Walks t links here (n :: rest) place
  /-- A link stands for the path that it holds. -/
  | follow {links : Nat} {here place : Place} {n : Name} {rest : List Name} {goal : Path}
      (inside : t.node? here = some .directory) (plain : IsPlain n)
      (found : t.node? (here ++ [n]) = some (.link goal))
      (onward : Walks t links (if goal.isAbsolute then [] else here) (names goal ++ rest) place) :
      Walks t (links + 1) here (n :: rest) place

theorem walks_of_walk (h : t.walk true links here ns = .ok place) : Walks t links here ns place := by
  -- one case for each way of going on; a walk that fails at some point comes to no end
  fun_induction walk t true links here ns with
  | case1 links here =>
    cases h
    exact .stop
  | case2 links here rest inside ih => exact .stay inside (ih h)
  | case3 links here rest inside _ ih => exact .up inside (ih h)
  | case8 here n rest inside notDot notDots long goal found _ links ih =>
    exact .follow inside ⟨notDot, notDots, Nat.le_of_not_lt long⟩ found (ih h)
  | case9 links here n rest inside notDot notDots long x solid found ih =>
    exact .enter inside ⟨notDot, notDots, Nat.le_of_not_lt long⟩ found solid (ih h)
  | case6 _ _ _ _ _ _ _ _ _ _ last => exact absurd last.2 (by simp)
  | case4 | case5 | case7 | case10 | case11 => cases h

theorem Walks.walk_eq (w : Walks t links here ns place) : t.walk true links here ns = .ok place := by
  induction w with
  | stop => rw [walk]
  | stay inside _ ih =>
    rw [walk, inside]
    exact ih
  | up inside _ ih =>
    rw [walk, inside]
    exact ih
  | enter inside plain found solid _ ih =>
    rw [walk, inside]
    simp only [plain.notDot, plain.notDots, Nat.not_lt.2 plain.short, if_false, found]
    rename_i x _
    cases x with
    | link goal => exact absurd rfl (solid goal)
    | directory => exact ih
    | file f => exact ih
  | follow inside plain found _ ih =>
    rw [walk, inside]
    simp only [plain.notDot, plain.notDots, Nat.not_lt.2 plain.short, if_false, found]
    simpa using ih

/-- A walk comes to its end in one of these ways. -/
theorem walk_eq_ok_iff : t.walk true links here ns = .ok place ↔ Walks t links here ns place :=
  ⟨walks_of_walk, Walks.walk_eq⟩

/-! ## Parts of a walk -/

namespace Walks

/-- A walk goes on only from a directory. -/
theorem directory (w : Walks t links here (n :: rest) place) : t.node? here = some .directory := by
  cases w <;> assumption

/-- A walk along some names leads along the first of them. -/
theorem exists_between (w : Walks t links here (ns ++ ms) place) :
    ∃ left between, Walks t links here ns between ∧ Walks t left between ms place := by
  -- the walk is the same, but the first names may end at any point of it
  generalize all : ns ++ ms = names at w
  induction w generalizing ns with
  | @stop links here =>
    obtain ⟨rfl, rfl⟩ := List.append_eq_nil_iff.1 all
    exact ⟨links, here, .stop, .stop⟩
  | stay inside onward ih =>
    rcases List.append_eq_cons_iff.1 all with ⟨rfl, rfl⟩ | ⟨ns, rfl, rfl⟩
    · exact ⟨_, _, .stop, .stay inside onward⟩
    · obtain ⟨left, between, first, later⟩ := ih rfl
      exact ⟨left, between, .stay inside first, later⟩
  | up inside onward ih =>
    rcases List.append_eq_cons_iff.1 all with ⟨rfl, rfl⟩ | ⟨ns, rfl, rfl⟩
    · exact ⟨_, _, .stop, .up inside onward⟩
    · obtain ⟨left, between, first, later⟩ := ih rfl
      exact ⟨left, between, .up inside first, later⟩
  | enter inside plain found solid onward ih =>
    rcases List.append_eq_cons_iff.1 all with ⟨rfl, rfl⟩ | ⟨ns, rfl, rfl⟩
    · exact ⟨_, _, .stop, .enter inside plain found solid onward⟩
    · obtain ⟨left, between, first, later⟩ := ih rfl
      exact ⟨left, between, .enter inside plain found solid first, later⟩
  | follow inside plain found onward ih =>
    rcases List.append_eq_cons_iff.1 all with ⟨rfl, rfl⟩ | ⟨ns, rfl, rfl⟩
    · exact ⟨_, _, .stop, .follow inside plain found onward⟩
    · -- the names of the link come before those that are left
      obtain ⟨left, between, first, later⟩ := ih (List.append_assoc ..)
      exact ⟨left, between, .follow inside plain found first, later⟩

/-- A dot more makes no difference in a directory. -/
theorem concat_dot (w : Walks t links here ns place) (inside : t.node? place = some .directory) :
    Walks t links here (ns ++ [[Path.dot]]) place := by
  induction w with
  | stop => exact .stay inside .stop
  | stay above _ ih => exact .stay above (ih inside)
  | up above _ ih => exact .up above (ih inside)
  | enter above plain found solid _ ih => exact .enter above plain found solid (ih inside)
  | follow above plain found _ ih =>
    rw [List.cons_append]
    refine .follow above plain found ?_
    rw [← List.append_assoc]
    exact ih inside

/-- Dots alone lead nowhere. -/
theorem eq_of_dots (w : Walks t links here ns place) (dots : ∀ n ∈ ns, n = [Path.dot]) :
    place = here := by
  induction w with
  | stop => rfl
  | stay _ _ ih => exact ih fun n inside => dots n (List.mem_cons_of_mem _ inside)
  | up =>
    have twice := dots _ (List.mem_cons_self ..)
    exact absurd twice (by decide)
  | enter _ plain => exact absurd (dots _ (List.mem_cons_self ..)) plain.notDot
  | follow _ plain => exact absurd (dots _ (List.mem_cons_self ..)) plain.notDot

end Walks

/-! ## Places at rest -/

/-- A place that can be walked to without links: directories lead to it, one name after the other. -/
inductive Rests (t : Tree) : Place → Prop where
  | root : Rests t []
  | under {here : Place} {n : Name} {x : Node} (above : Rests t here)
      (inside : t.node? here = some .directory) (plain : IsPlain n)
      (spelled : n ≠ [] ∧ Path.separator ∉ n) (found : t.node? (here ++ [n]) = some x)
      (solid : ∀ goal, x ≠ .link goal) : Rests t (here ++ [n])

/-- The directory above a place. -/
theorem Rests.dropLast (r : Rests t here) : Rests t here.dropLast := by
  cases r with
  | root => exact .root
  | under above =>
    rw [List.dropLast_concat]
    exact above

/-- What a path spells are names. -/
theorem mem_names (inside : n ∈ names p) : n ≠ [] ∧ Path.separator ∉ n := by
  have parts : n ∈ (Path.split p.bytes).filter (fun part => part != []) →
      n ≠ [] ∧ Path.separator ∉ n := by
    intro inside
    obtain ⟨part, more⟩ := List.mem_filter.1 inside
    exact ⟨by simpa using more, Path.separator_not_mem part⟩
  unfold names at inside
  simp only at inside
  split at inside
  · rcases List.mem_append.1 inside with inside | dot
    · exact parts inside
    · rw [List.mem_singleton.1 dot]
      decide
  · exact parts inside

/-- A walk that begins at rest ends at rest. -/
theorem Walks.rests (w : Walks t links here ns place) (begins : Rests t here)
    (spelled : ∀ n ∈ ns, n ≠ [] ∧ Path.separator ∉ n) : Rests t place := by
  induction w with
  | stop => exact begins
  | stay _ _ ih => exact ih begins fun n inside => spelled n (List.mem_cons_of_mem _ inside)
  | up _ _ ih => exact ih begins.dropLast fun n inside => spelled n (List.mem_cons_of_mem _ inside)
  | enter inside plain found solid _ ih =>
    refine ih (.under begins inside plain (spelled _ (List.mem_cons_self ..)) found solid) ?_
    exact fun n inside => spelled n (List.mem_cons_of_mem _ inside)
  | follow _ _ _ _ ih =>
    refine ih ?_ fun n inside => ?_
    · -- a link leads on from the root or from where it stands
      split
      · exact .root
      · exact begins
    rcases List.mem_append.1 inside with inside | inside
    · exact mem_names inside
    · exact spelled n (List.mem_cons_of_mem _ inside)

/-- The names of a place lead to it. -/
theorem Rests.walks (r : Rests t here) (w : Walks t links here ns place) :
    Walks t links [] (here ++ ns) place := by
  induction r generalizing ns with
  | root => exact w
  | under _ inside plain _ found solid ih =>
    rw [List.append_assoc]
    exact ih (.enter inside plain found solid w)

/-! ## Where paths lead -/

theorem admissible_eq_ok_iff :
    admissible p = .ok () ↔ (0 : UInt8) ∉ p.bytes ∧ p.bytes ≠ [] ∧ p.bytes.length < 4096 := by
  unfold admissible
  by_cases zero : (0 : UInt8) ∈ p.bytes
  · simp [zero]
  · by_cases empty : p.bytes = []
    · simp [empty]
    · by_cases long : 4096 ≤ p.bytes.length
      · simp [zero, empty, long]
      · simp [zero, empty, long]
        omega

/-- A path leads to a place by a walk along its names. -/
theorem locate_eq_ok_iff : t.locate p = .ok (place, x) ↔
    admissible p = .ok () ∧ Walks t maxLinks (t.origin p) (names p) place ∧
      t.node? place = some x := by
  unfold locate
  cases taken : admissible p with
  | error e => simp [bind, Except.bind]
  | ok _ =>
    cases walked : t.walk true maxLinks (t.origin p) (names p) with
    | error e => simp [bind, Except.bind, walked, ← walk_eq_ok_iff]
    | ok there =>
      cases found : t.node? there with
      | none =>
        simp only [bind, Except.bind, found, ← walk_eq_ok_iff, walked]
        simp only [reduceCtorEq, Except.ok.injEq, true_and, false_iff, not_and]
        rintro rfl
        simp [found]
      | some y =>
        simp only [bind, Except.bind, found, ← walk_eq_ok_iff, walked]
        simp only [Except.ok.injEq, Prod.mk.injEq, true_and]
        constructor
        · rintro ⟨rfl, rfl⟩
          exact ⟨rfl, found⟩
        · rintro ⟨rfl, same⟩
          exact ⟨rfl, Option.some.inj (found.symm.trans same)⟩

theorem has_iff : t.has p = true ↔ ∃ place x, t.locate p = .ok (place, x) := by
  unfold has
  cases found : t.locate p with
  | error e => simp [Except.isOk, Except.toBool]
  | ok leads =>
    obtain ⟨place, x⟩ := leads
    simp [Except.isOk, Except.toBool]

theorem isExecutable_iff : t.isExecutable p = true ↔
    ∃ place f, t.locate p = .ok (place, .file f) ∧ f.mode &&& 0o111 ≠ 0 := by
  unfold isExecutable
  cases found : t.locate p with
  | error e => simp
  | ok leads =>
    obtain ⟨place, x⟩ := leads
    cases x <;> simp

/-! ## The path above -/

/-- The parts that a path is spelled with. -/
def parts (p : Path) : List Name := (Path.split p.bytes).filter fun part => part != []

/-- A separator at the end counts as a dot. -/
theorem names_cases (p : Path) : names p = parts p ∨ names p = parts p ++ [[Path.dot]] := by
  unfold names parts
  simp only
  split
  · exact .inr rfl
  · exact .inl rfl

theorem parts_of_absolute (absolute : p.isAbsolute = true) :
    parts p = p.bodyParts.filter fun part => part != [] := by
  have clean : ∀ part ∈ p.bodyParts, Path.separator ∉ part := fun part => Path.separator_not_mem
  have cut : Path.split p.bytes = [] :: p.bodyParts := by
    rw [Path.bytes_of_absolute absolute, Path.split_separator,
      Path.split_join clean (Path.split_ne_nil _)]
  unfold parts
  rw [cut]
  rfl

/-- The names of an absolute path go on behind those of the path above it. -/
theorem exists_names_of_parent? (absolute : p.isAbsolute = true) (above : p.parent? = some q) :
    ∃ n rest, names p = parts q ++ n :: rest := by
  obtain ⟨kept, more, whole, ⟨part, inside, notIdle⟩, is⟩ :=
    Path.exists_kept_of_parent? above absolute
  have notEmpty : part ∈ more.filter fun part => part != [] := by
    refine List.mem_filter.2 ⟨inside, ?_⟩
    unfold Path.isIdle at notIdle
    simp only [Bool.or_eq_false_iff, beq_eq_false_iff_ne] at notIdle
    simpa using notIdle.1
  obtain ⟨n, rest, later⟩ := List.exists_cons_of_ne_nil (List.ne_nil_of_mem notEmpty)
  -- what is kept are the parts of the path above, though it may have none at all
  have first : parts q = kept.filter fun part => part != [] := by
    rw [parts_of_absolute (Path.prefix_of_parent? above absolute).1]
    have root : p.head = [Path.separator] := by simp [Path.head, absolute]
    have body : q.bodyParts = Path.split (Path.join kept) := by
      rw [is, root]
      rfl
    rw [body]
    by_cases empty : kept = []
    · subst empty
      rfl
    · refine congrArg _ (Path.split_join (fun part inside => ?_) empty)
      have spelled : part ∈ p.bodyParts := whole ▸ List.mem_append_left _ inside
      exact Path.separator_not_mem spelled
  have onward : parts p = parts q ++ n :: rest := by
    rw [parts_of_absolute absolute, whole, List.filter_append, first, later]
  rcases names_cases p with bare | dotted
  · exact ⟨n, rest, bare.trans onward⟩
  · refine ⟨n, rest ++ [[Path.dot]], ?_⟩
    rw [dotted, onward, List.append_assoc]
    rfl

/-- What a path passes on its way is a directory. -/
theorem has_of_passed (taken : admissible q = .ok ()) (begins : t.origin q = t.origin p)
    (onward : names p = parts q ++ n :: rest) (h : t.has p = true) : t.has q = true := by
  obtain ⟨place, x, leads⟩ := has_iff.1 h
  obtain ⟨-, walks, -⟩ := locate_eq_ok_iff.1 leads
  rw [onward, ← begins] at walks
  obtain ⟨left, between, first, later⟩ := walks.exists_between
  -- the walk goes on from where the path leads, so that is a directory and may be followed by a dot
  have inside : t.node? between = some .directory := later.directory
  refine has_iff.2 ⟨between, .directory, locate_eq_ok_iff.2 ⟨taken, ?_, inside⟩⟩
  rcases names_cases q with bare | dotted
  · rw [bare]
    exact first
  · rw [dotted]
    exact first.concat_dot inside

theorem origin_of_absolute (absolute : p.isAbsolute = true) : t.origin p = [] := by
  unfold origin
  rw [if_pos absolute]

/-- The path above one that leads to something leads to something. -/
theorem has_of_parent? (absolute : p.isAbsolute = true) (above : p.parent? = some q)
    (h : t.has p = true) : t.has q = true := by
  obtain ⟨absolute', first⟩ := Path.prefix_of_parent? above absolute
  -- it is spelled as the longer path begins, so it is not too long and holds no zero
  have taken : admissible q = .ok () := by
    obtain ⟨place, x, leads⟩ := has_iff.1 h
    obtain ⟨noZero, -, short⟩ := admissible_eq_ok_iff.1 (locate_eq_ok_iff.1 leads).1
    refine admissible_eq_ok_iff.2 ⟨fun zero => noZero (first.subset zero), ?_, ?_⟩
    · intro empty
      simp [Path.isAbsolute, empty] at absolute'
    · exact Nat.lt_of_le_of_lt first.length_le short
  obtain ⟨n, rest, onward⟩ := exists_names_of_parent? absolute above
  refine has_of_passed taken ?_ onward h
  rw [origin_of_absolute absolute, origin_of_absolute absolute']

/-- The root directory is no file, however its path is spelled. -/
theorem components_ne_root (absolute : p.isAbsolute = true) {f : File}
    (leads : t.locate p = .ok (place, .file f)) : p.components ≠ [.root] := by
  intro root
  obtain ⟨-, walks, found⟩ := locate_eq_ok_iff.1 leads
  have idle : ∀ part ∈ p.bodyParts, Path.isIdle part = true := by
    have bare : p.named = [] := by
      rw [Path.components_eq] at root
      simpa [Path.front, absolute] using root
    simpa [Path.named] using bare
  have dots : ∀ n ∈ parts p, n = [Path.dot] := by
    intro n inside
    rw [parts_of_absolute absolute] at inside
    obtain ⟨inside, notEmpty⟩ := List.mem_filter.1 inside
    have idle := idle n inside
    simp only [Path.isIdle, Bool.or_eq_true, beq_iff_eq, bne_iff_ne] at idle notEmpty
    exact idle.resolve_left notEmpty
  -- a walk along dots stays where it is, and there is the root
  have still : place = t.origin p := by
    refine walks.eq_of_dots fun n inside => ?_
    rcases names_cases p with bare | dotted
    · exact dots n (bare ▸ inside)
    · rw [dotted] at inside
      rcases List.mem_append.1 inside with inside | dot
      · exact dots n inside
      · exact List.mem_singleton.1 dot
  rw [still, origin_of_absolute absolute] at found
  cases found

/-! ## Canonical paths -/

theorem canonical_eq_ok_iff {real : Path} : t.canonical p = .ok real ↔
    ∃ place x, t.locate p = .ok (place, x) ∧ admissible (pathOf place) = .ok () ∧
      real = pathOf place := by
  unfold canonical
  cases found : t.locate p with
  | error e => simp [bind, Except.bind]
  | ok leads =>
    obtain ⟨place, x⟩ := leads
    cases taken : admissible (pathOf place) with
    | error e => simp [bind, Except.bind, taken]
    | ok _ => simp [bind, Except.bind, taken, eq_comm]

theorem isAbsolute_pathOf (place : Place) : (pathOf place).isAbsolute = true := by
  unfold pathOf
  cases place <;> rfl

theorem Rests.mem (r : Rests t place) : ∀ n ∈ place, n ≠ [] ∧ Path.separator ∉ n := by
  induction r with
  | root => exact fun _ inside => absurd inside List.not_mem_nil
  | under _ _ _ spelled _ _ ih =>
    intro n inside
    rcases List.mem_append.1 inside with inside | last
    · exact ih n inside
    · rwa [List.mem_singleton.1 last]

/-- The path of a place is its names, with an empty part in front. -/
theorem bytes_pathOf (below : place ≠ []) : (pathOf place).bytes = Path.join ([] :: place) := by
  have behind : ∀ (n : Name) (place : Place),
      Path.join (n :: place) = n ++ Path.join ([] :: place) := by
    intro n place
    cases place with
    | nil => simp [Path.join, List.intercalate]
    | cons next place =>
      rw [Path.join_cons_cons, Path.join_cons_cons]
      rfl
  have joined : ∀ place : Place,
      (place.flatMap fun n => Path.separator :: n) = Path.join ([] :: place) := by
    intro place
    induction place with
    | nil => rfl
    | cons n place ih =>
      rw [List.flatMap_cons, ih, Path.join_cons_cons, behind n place]
      rfl
  unfold pathOf
  rw [if_neg below]
  exact joined place

/-- It spells them, and asks for nothing behind them. -/
theorem names_pathOf (spelled : ∀ n ∈ place, n ≠ [] ∧ Path.separator ∉ n) (below : place ≠ []) :
    names (pathOf place) = place := by
  have clean : ∀ n ∈ [] :: place, Path.separator ∉ n := by
    intro n inside
    rcases List.mem_cons.1 inside with rfl | inside
    · exact List.not_mem_nil
    · exact (spelled n inside).2
  have same : parts (pathOf place) = place := by
    unfold parts
    rw [bytes_pathOf below, Path.split_join clean (List.cons_ne_nil _ _)]
    show place.filter _ = place
    refine List.filter_eq_self.2 fun n inside => ?_
    simpa using (spelled n inside).1
  -- the last byte belongs to the last name
  have noSlash : (pathOf place).bytes.getLast? ≠ some Path.separator := by
    obtain ⟨above, n, rfl⟩ := (List.eq_nil_or_concat place).resolve_left below
    obtain ⟨notEmpty, noSeparator⟩ := spelled n (by simp)
    obtain ⟨first, b, rfl⟩ := (List.eq_nil_or_concat n).resolve_left notEmpty
    intro slash
    unfold pathOf at slash
    rw [if_neg below] at slash
    simp only [List.concat_eq_append, List.flatMap_append, List.flatMap_singleton,
      List.getLast?_append_cons] at slash
    rw [← List.cons_append, List.getLast?_concat] at slash
    exact noSeparator (by simp [Option.some.inj slash])
  unfold names
  simp only [if_neg noSlash]
  exact same

/-- A canonical path leads where the path leads that it is made of. -/
theorem locate_of_canonical {real : Path} (absolute : p.isAbsolute = true)
    (h : t.canonical p = .ok real) : t.locate real = t.locate p := by
  obtain ⟨place, x, leads, taken, rfl⟩ := canonical_eq_ok_iff.1 h
  obtain ⟨-, walks, found⟩ := locate_eq_ok_iff.1 leads
  rw [origin_of_absolute absolute] at walks
  have rests : Rests t place := walks.rests .root fun n => mem_names
  rw [leads]
  -- no link is left on the way to a place at rest, so its own names lead to it
  refine locate_eq_ok_iff.2 ⟨taken, ?_, found⟩
  rw [origin_of_absolute (isAbsolute_pathOf place)]
  by_cases top : place = []
  · subst top
    exact .stay rfl .stop
  · rw [names_pathOf rests.mem top]
    have direct : Walks t maxLinks [] (place ++ []) place := rests.walks .stop
    rwa [List.append_nil] at direct

end SnippetRunner.Files.Tree
