import SnippetRunner.Files.Workspace
import SnippetRunner.Proofs.Files.Lasting
import SnippetRunner.Proofs.Launch.Check

/-!
# The region of a workspace

The root of a workspace is a new directory, so nothing but what the workspace makes stands in it, and above
all no link. A path in the workspace then leads to the place that its names spell below the root, whatever
leads to the root itself, and one call changes nothing but that place and the directories above it: making a
directory makes all that are missing on the way to it, and writing a file makes those and the file.
-/

namespace SnippetRunner.Files

open Files.Tree

variable {t t' s : Tree} {top place : Place} {n : Name} {ns ms ks before : List Name} {p q root full : Path}
  {w : Workspace} {path : String} {content : List UInt8} {executable : Bool} {fuel : Nat}

namespace Workspace

/-- The root of the workspace is the directory at this place. Its path ends with a name, and there are no
links in it. -/
structure Based (w : Workspace) (t : Tree) (top : Place) : Prop where
  leads : Walks t maxLinks (t.origin w.root) (parts w.root) top
  inside : t.node? top = some .directory
  solid : ∀ p goal, top <+: p → t.node? p ≠ some (.link goal)
  ends : ∃ above n, parts w.root = above ++ [n] ∧ n ≠ [Path.dot]

/-- A path that goes on from the root of the workspace, and nowhere upwards. -/
structure GoesOn (w : Workspace) (p : Path) (ms : List Name) : Prop where
  spelled : parts p = parts w.root ++ ms
  begins : p.isAbsolute = w.root.isAbsolute
  level : [Path.dot, Path.dot] ∉ ms

/-! ## Paths in a workspace -/

theorem isAbsolute_ofText_of_local (inside : Launch.Local path) :
    (Path.ofText path).isAbsolute = false := by
  rw [Bool.eq_false_iff, Ne, Path.isAbsolute_ofText_iff]
  exact inside.relative

namespace Based

theorem lasts (b : Based w t top) (l : Lasts t t') : Based w t' top where
  leads := l.origin w.root ▸ l.walks b.leads
  inside := l.directory _ b.inside
  solid := fun p goal below found => b.solid p goal below ((l.link p goal).1 found)
  ends := b.ends

theorem named (b : Based w t top) : w.root.named ≠ [] := by
  obtain ⟨above, n, spelled, notDot⟩ := b.ends
  rw [← undotted_parts, spelled, undotted_append, undotted_cons_of_ne notDot]
  simp

theorem named_of_goesOn (b : Based w t top) (g : GoesOn w p ms) : p.named ≠ [] := by
  rw [← undotted_parts, g.spelled, undotted_append, undotted_parts]
  simp [b.named]

/-- A checked path goes on from the root along its own parts. -/
theorem goesOn_child (b : Based w t top) (inside : Launch.Local path) :
    GoesOn w (w.root.child path) (parts (.ofText path)) := by
  have relative := isAbsolute_ofText_of_local inside
  refine ⟨parts_append relative,
    isAbsolute_append relative (Path.bytes_ne_nil_of_named b.named), fun up => ?_⟩
  apply inside.level
  rw [← Path.parent_mem_components_ofText_iff, Path.parent_mem_components_iff]
  exact (List.mem_filter.1 up).1

/-- The path above one that goes on goes on along the same names but for the last, if there are any. -/
theorem goesOn_above (b : Based w t top) (g : GoesOn w p ms) (proper : undotted ms ≠ [])
    (h : p.parent? = some q) : ∃ ks, GoesOn w q ks ∧ undotted ks = (undotted ms).dropLast := by
  obtain ⟨dots, last, behind, spelled, notDot, before, after, begins⟩ :=
    exists_parts_of_parent? (b.named_of_goesOn g) h
  have tail : undotted (dots ++ last :: behind) = [last] := by
    rw [undotted_append, before, undotted_cons_of_ne notDot, after]
    rfl
  rw [g.spelled] at spelled
  rcases List.append_eq_append_iff.1 spelled with ⟨ks, upper, is⟩ | ⟨ks, upper, is⟩
  · refine ⟨ks, ⟨upper, begins.trans g.begins, fun up => g.level (is ▸ List.mem_append_left _ up)⟩, ?_⟩
    rw [is, undotted_append, tail, List.dropLast_concat]
  · -- the root ends with a name, and no more than one name is left out
    have kept : undotted ks = [] := by
      have both : undotted ks ++ undotted ms = [last] := by rw [← undotted_append, ← is, tail]
      rcases List.append_eq_singleton_iff.1 both with ⟨none, -⟩ | ⟨-, none⟩
      · exact none
      · exact absurd none proper
    have none : ks = [] := by
      obtain ⟨above, n, ends, notDot⟩ := b.ends
      rcases List.eq_nil_or_concat ks with empty | ⟨front, k, rfl⟩
      · exact empty
      · rw [upper, List.concat_eq_append, ← List.append_assoc] at ends
        obtain rfl := (List.append_inj' ends rfl).2 |> List.singleton_inj.1
        exact absurd (undotted_eq_nil_iff.1 kept k (by simp)) notDot
    subst none
    rw [List.append_nil] at upper
    refine ⟨[], ⟨by rw [upper, List.append_nil], begins.trans g.begins, nofun⟩, ?_⟩
    rw [List.nil_append] at is
    rw [← is, tail]
    rfl

theorem origin_eq (g : GoesOn w p ms) (t : Tree) : t.origin p = t.origin w.root := by
  unfold Tree.origin
  rw [g.begins]

/-- Where such a path leads, if it leads somewhere, and what it passes. -/
theorem eq_of_walks (b : Based w t top) (g : GoesOn w p ms)
    (walks : Walks t maxLinks (t.origin p) (parts w.root ++ ns) place) (level : [Path.dot, Path.dot] ∉ ns) :
    place = top ++ undotted ns ∧
      ∀ ks n, ks ++ [n] <+: undotted ns → t.node? (top ++ ks) = some .directory := by
  rw [origin_eq g] at walks
  obtain ⟨left, between, first, later⟩ := walks.exists_between
  rw [b.leads.eq first] at later
  exact later.eq_append b.solid level

/-- The place of the last name of such a path, and what stands above it. -/
theorem eq_of_enters (b : Based w t top) (g : GoesOn w p ms) (nonempty : ms ≠ [])
    (e : Enters t p before n place) :
    place ++ [n] = top ++ undotted ms ∧
      ∀ ks n, ks ++ [n] <+: undotted ms → t.node? (top ++ ks) = some .directory := by
  obtain ⟨ks, k, rfl⟩ := (List.eq_nil_or_concat ms).resolve_left nonempty
  rw [List.concat_eq_append] at g ⊢
  have spelled := g.spelled.symm.trans e.spelled
  rw [← List.append_assoc] at spelled
  obtain ⟨rfl, same⟩ := List.append_inj' spelled rfl
  obtain rfl := List.singleton_inj.1 same
  obtain ⟨is, passed⟩ := b.eq_of_walks g e.walks fun up => g.level (List.mem_append_left _ up)
  have inside := e.inside
  rw [is] at inside ⊢
  rw [undotted_append, undotted_cons_of_ne e.plain.notDot, undotted_nil]
  refine ⟨List.append_assoc .., fun ls m first => ?_⟩
  rcases List.prefix_concat_iff.1 first with whole | shorter
  · rw [(List.append_inj' whole rfl).1]
    exact inside
  · exact passed ls m shorter

/-- Dots alone lead back to the root. -/
theorem has (b : Based w t top) (g : GoesOn w p ms) (dots : undotted ms = [])
    (taken : admissible p = .ok ()) : t.has p = true := by
  have back : Walks t maxLinks (t.origin p) (parts p) top := by
    rw [origin_eq g, g.spelled]
    exact b.leads.append fun _ => .of_dots b.inside dots
  exact has_iff.2 ⟨top, .directory, back.locate_eq b.inside taken⟩

end Based

/-! ## Making directories -/

/-- Directories stand at a place and on the way that leads on from there, those that were missing among
them, and nothing else is new. -/
structure Paved (t : Tree) (top : Place) (ns : List Name) (t' : Tree) : Prop where
  working : t'.working = t.working
  kept : ∀ p x, t.node? p = some x → t'.node? p = some x
  paved : ∀ ks, ks <+: ns → t'.node? (top ++ ks) = some .directory
  new : ∀ p, t.node? p = none → t'.node? p ≠ none → ∃ ks, ks <+: ns ∧ p = top ++ ks

/-- The beginnings of a list are the list itself and those with one more behind them. -/
theorem prefix_cases (begins : ks <+: ns) : ks = ns ∨ ∃ n, ks ++ [n] <+: ns := by
  obtain ⟨rest, rfl⟩ := begins
  cases rest with
  | nil => exact .inl (List.append_nil ks).symm
  | cons n rest => exact .inr ⟨n, rest, by simp⟩

namespace Paved

theorem lasts (p : Paved t top ns t') : Lasts t t' where
  working := p.working
  directory := fun place found => p.kept place _ found
  file := fun place f found => ⟨f, p.kept place _ found⟩
  link := by
    intro place goal
    refine ⟨fun found => ?_, p.kept place _⟩
    cases old : t.node? place with
    | none =>
      obtain ⟨ks, begins, rfl⟩ := p.new place old (by simp [found])
      rw [p.paved ks begins] at found
      cases found
    | some x =>
      rw [p.kept place x old] at found
      exact found

theorem trans (first : Paved t top ms s) (later : Paved s top ns t') (begins : ms <+: ns) :
    Paved t top ns t' where
  working := later.working.trans first.working
  kept := fun p x found => later.kept p x (first.kept p x found)
  paved := later.paved
  new := by
    intro p old now
    by_cases between : s.node? p = none
    · exact later.new p between now
    · obtain ⟨ks, front, is⟩ := first.new p old between
      exact ⟨ks, front.trans begins, is⟩

/-- Nothing has to be done where the directories are there. -/
theorem refl (above : ∀ ks n, ks ++ [n] <+: ns → t.node? (top ++ ks) = some .directory)
    (last : t.node? (top ++ ns) = some .directory) : Paved t top ns t where
  working := rfl
  kept := fun _ _ => id
  paved := by
    intro ks begins
    rcases prefix_cases begins with rfl | ⟨n, longer⟩
    · exact last
    · exact above ks n longer
  new := fun _ old now => absurd old now

end Paved

namespace Based

theorem paved_of_makeDirectory (b : Based w t top) (g : GoesOn w p ms) (nonempty : ms ≠ [])
    (made : t.makeDirectory p = .ok t') : Paved t top (undotted ms) t' := by
  obtain ⟨before, n, place, enters, free, rfl⟩ := exists_enters_of_makeDirectory made
  obtain ⟨is, passed⟩ := b.eq_of_enters g nonempty enters
  rw [is] at free ⊢
  have below : top ++ undotted ms ≠ [] := is ▸ concat_ne_nil
  have kept : ∀ p x, t.node? p = some x →
      (t.put (top ++ undotted ms) .directory).node? p = some x := by
    intro p x found
    rw [node?_put_of_ne below]
    · exact found
    · rintro rfl
      rw [found] at free
      cases free
  refine ⟨rfl, kept, fun ks begins => ?_, fun p old now => ?_⟩
  · rcases prefix_cases begins with rfl | ⟨n, longer⟩
    · exact node?_put_self below
    · exact kept _ _ (passed ks n longer)
  · refine ⟨undotted ms, List.prefix_rfl, ?_⟩
    by_contra other
    exact now ((node?_put_of_ne below other).trans old)

theorem paved_of_isDirectory (b : Based w t top) (g : GoesOn w p ms) (is : t.isDirectory p = true) :
    Paved t top (undotted ms) t := by
  obtain ⟨place, leads⟩ := isDirectory_iff.1 is
  obtain ⟨-, walks, found⟩ := locate_eq_ok_iff.1 leads
  -- a separator at the end makes no difference
  obtain ⟨ns, spelled, level, same⟩ : ∃ ns, names p = parts w.root ++ ns ∧ [Path.dot, Path.dot] ∉ ns ∧
      undotted ns = undotted ms := by
    rcases names_cases p with bare | dotted
    · exact ⟨ms, bare.trans g.spelled, g.level, rfl⟩
    · refine ⟨ms ++ [[Path.dot]], by rw [dotted, g.spelled, List.append_assoc], fun up => ?_, by simp⟩
      rcases List.mem_append.1 up with up | up
      · exact g.level up
      · exact absurd (List.mem_singleton.1 up) (by decide)
  rw [spelled] at walks
  obtain ⟨rfl, passed⟩ := b.eq_of_walks g walks level
  rw [same] at found passed
  exact .refl passed found

theorem paved_of_makeDirectories (b : Based w t top) (g : GoesOn w p ms)
    (made : makeDirectories fuel t p = .ok t') : Paved t top (undotted ms) t' := by
  -- the directory above comes first, and names run out at the root, which is there
  induction fuel generalizing p ms t' with
  | zero => cases made
  | succ fuel ih =>
    have named := b.named_of_goesOn g
    have nonempty : undotted ms ≠ [] → ms ≠ [] := by
      rintro proper rfl
      exact proper rfl
    rcases makeDirectories_cases (Path.components_ne_nil_of_named named) made with
      first | ⟨rfl, is⟩ | ⟨missing, q, s, above, upper, last⟩
    · by_cases dots : undotted ms = []
      · obtain ⟨before, n, place, enters, -⟩ := exists_enters_of_makeDirectory first
        rw [makeDirectory_of_has (b.has g dots enters.taken)] at first
        cases first
      · exact b.paved_of_makeDirectory g (nonempty dots) first
    · exact b.paved_of_isDirectory g is
    · by_cases dots : undotted ms = []
      · have spelled := Path.bytes_ne_nil_of_named named
        rw [makeDirectory_of_has (b.has g dots (admissible_of_missing missing spelled))] at missing
        cases missing
      · obtain ⟨ks, on, is⟩ := b.goesOn_above g dots above
        have front := ih on upper
        have shorter : undotted ks <+: undotted ms := is ▸ List.dropLast_prefix _
        have b' := b.lasts front.lasts
        rcases last with last | ⟨rfl, there⟩
        · exact front.trans (b'.paved_of_makeDirectory g (nonempty dots) last) shorter
        · exact front.trans (b'.paved_of_isDirectory g there) shorter

theorem paved_of_ensureDirectory (b : Based w t top) (g : GoesOn w p ms)
    (made : t.ensureDirectory p = .ok t') : Paved t top (undotted ms) t' :=
  b.paved_of_makeDirectories g made

end Based

end Workspace

end SnippetRunner.Files
