import SnippetRunner.Proofs.Files.Below

/-!
# What changes of a file tree leave as it is

Making directories, writing files and setting their permissions take nothing away: a directory stays one, and
so do files and links, though a file may come to hold something else. Walks therefore still lead where they
led before. The other half is what each change adds: one thing at the end of a walk, under its last name.
-/

namespace SnippetRunner.Files.Tree

variable {t t' s : Tree} {links fuel mode : Nat} {here place : Place} {n : Name} {ns above : List Name}
  {x y : Node} {f : File} {p q : Path} {spot : Place} {slash : Bool} {content : List UInt8}

/-! ## One thing more -/

theorem node?_put (below : place ≠ []) (spot : Place) :
    (t.put place x).node? spot = if spot = place then some x else t.node? spot := by
  have found : ∀ nodes : List (Place × Node),
      ((nodes.filter (fun e => e.1 != place) ++ [(place, x)]).find? fun e => e.1 == spot).map Prod.snd =
        if spot = place then some x else (nodes.find? fun e => e.1 == spot).map Prod.snd := by
    intro nodes
    rw [List.find?_append]
    by_cases is : spot = place
    · subst is
      have gone : (nodes.filter fun e => e.1 != spot).find? (fun e => e.1 == spot) = none := by
        simp
      simp [gone]
    · have same : (nodes.filter fun e => e.1 != place).find? (fun e => e.1 == spot) =
          nodes.find? fun e => e.1 == spot := by
        rw [List.find?_filter]
        congr 1
        funext e
        by_cases here : e.1 = spot
        · simp [here, is]
        · simp [here]
      rw [same]
      simp [is, Ne.symm is]
  unfold node? put
  by_cases top : spot = []
  · simp [top, Ne.symm below]
  · simp only [if_neg top]
    exact found t.nodes

theorem node?_put_self (below : place ≠ []) : (t.put place x).node? place = some x := by
  rw [node?_put below, if_pos rfl]

theorem node?_put_of_ne (below : place ≠ []) (other : spot ≠ place) :
    (t.put place x).node? spot = t.node? spot := by
  rw [node?_put below, if_neg other]

/-- What stands where a file may be written is a file. -/
theorem exists_file_of_free (free : t.node? place = none ∨ ∃ f, t.node? place = some (.file f))
    (found : t.node? place = some x) : ∃ f, x = .file f := by
  rcases free with free | ⟨f, free⟩
  · rw [found] at free
    cases free
  · exact ⟨f, Option.some.inj (found.symm.trans free)⟩

/-! ## Trees that last -/

/-- What stands in the one tree stands in the other one, though files may hold something else there, and
there are no links but these. -/
structure Lasts (t t' : Tree) : Prop where
  working : t'.working = t.working
  directory : ∀ p, t.node? p = some .directory → t'.node? p = some .directory
  file : ∀ p f, t.node? p = some (.file f) → ∃ g, t'.node? p = some (.file g)
  link : ∀ p goal, t'.node? p = some (.link goal) ↔ t.node? p = some (.link goal)

namespace Lasts

theorem refl (t : Tree) : Lasts t t :=
  ⟨rfl, fun _ => id, fun _ f found => ⟨f, found⟩, fun _ _ => .rfl⟩

theorem trans (first : Lasts t t') (later : Lasts t' s) : Lasts t s where
  working := later.working.trans first.working
  directory := fun p found => later.directory p (first.directory p found)
  file := fun p f found =>
    have ⟨g, found⟩ := first.file p f found
    later.file p g found
  link := fun p goal => (later.link p goal).trans (first.link p goal)

/-- Where nothing is, anything but a link may come. -/
theorem put_new (below : place ≠ []) (free : t.node? place = none) (noLink : ∀ goal, x ≠ .link goal) :
    Lasts t (t.put place x) := by
  have kept : ∀ p y, t.node? p = some y → (t.put place x).node? p = some y := by
    intro p y found
    rw [node?_put_of_ne below]
    · exact found
    · rintro rfl
      rw [found] at free
      cases free
  refine ⟨rfl, fun p => kept p _, fun p f found => ⟨f, kept p _ found⟩, fun p goal => ⟨?_, kept p _⟩⟩
  intro found
  by_cases is : p = place
  · rw [is, node?_put_self below] at found
    exact absurd (Option.some.inj found) (noLink goal)
  · rwa [node?_put_of_ne below is] at found

/-- A file may come where nothing is, and in the place of another one. -/
theorem put_file (below : place ≠ [])
    (free : t.node? place = none ∨ ∃ f, t.node? place = some (.file f)) :
    Lasts t (t.put place (.file f)) := by
  have other : ∀ p y, t.node? p = some y → (∀ g, y ≠ .file g) → p ≠ place := by
    rintro p y found noFile rfl
    obtain ⟨g, is⟩ := exists_file_of_free free found
    exact noFile g is
  refine ⟨rfl, fun p found => ?_, fun p g found => ?_, fun p goal => ⟨fun found => ?_, fun found => ?_⟩⟩
  · rw [node?_put_of_ne below (other p _ found nofun), found]
  · by_cases is : p = place
    · exact ⟨f, by rw [is, node?_put_self below]⟩
    · exact ⟨g, by rw [node?_put_of_ne below is, found]⟩
  · by_cases is : p = place
    · rw [is, node?_put_self below] at found
      cases found
    · rwa [node?_put_of_ne below is] at found
  · rw [node?_put_of_ne below (other p _ found nofun), found]

/-- Where something stood, something of its kind stands. -/
theorem exists_node (l : Lasts t t') (solid : ∀ goal, x ≠ .link goal) (found : t.node? here = some x) :
    ∃ y, t'.node? here = some y ∧ ∀ goal, y ≠ .link goal := by
  cases x with
  | directory => exact ⟨_, l.directory _ found, nofun⟩
  | file f =>
    obtain ⟨g, found⟩ := l.file _ _ found
    exact ⟨_, found, nofun⟩
  | link goal => exact absurd rfl (solid goal)

/-- Walks lead where they led. -/
theorem walks (l : Lasts t t') (w : Walks t links here ns place) : Walks t' links here ns place := by
  induction w with
  | stop => exact .stop
  | stay inside _ ih => exact .stay (l.directory _ inside) ih
  | up inside _ ih => exact .up (l.directory _ inside) ih
  | enter inside plain found solid _ ih =>
    obtain ⟨y, found, solid⟩ := l.exists_node solid found
    exact .enter (l.directory _ inside) plain found solid ih
  | follow inside plain found _ ih =>
    exact .follow (l.directory _ inside) plain ((l.link _ _).2 found) ih

theorem origin (l : Lasts t t') (p : Path) : t'.origin p = t.origin p := by
  unfold Tree.origin
  rw [l.working]

/-- And so do paths. -/
theorem locate (l : Lasts t t') (leads : t.locate p = .ok (place, x)) (found : t'.node? place = some y) :
    t'.locate p = .ok (place, y) := by
  obtain ⟨taken, walks, -⟩ := locate_eq_ok_iff.1 leads
  exact locate_eq_ok_iff.2 ⟨taken, l.origin p ▸ l.walks walks, found⟩

end Lasts

theorem isDirectory_iff : t.isDirectory p = true ↔ ∃ place, t.locate p = .ok (place, .directory) := by
  unfold isDirectory
  cases found : t.locate p with
  | error e => simp
  | ok leads =>
    obtain ⟨place, x⟩ := leads
    cases x <;> simp

theorem Lasts.isDirectory (l : Lasts t t') (is : t.isDirectory p = true) : t'.isDirectory p = true := by
  obtain ⟨place, leads⟩ := isDirectory_iff.1 is
  obtain ⟨-, -, found⟩ := locate_eq_ok_iff.1 leads
  exact isDirectory_iff.2 ⟨place, l.locate leads (l.directory _ found)⟩

/-! ## New names -/

/-- A path that names something in a directory: the walk to the directory, and the name there. -/
structure Enters (t : Tree) (p : Path) (above : List Name) (n : Name) (place : Place) : Prop where
  taken : admissible p = .ok ()
  spelled : parts p = above ++ [n]
  walks : Walks t maxLinks (t.origin p) above place
  inside : t.node? place = some .directory
  plain : IsPlain n

theorem exists_enters_of_target (h : t.target p = .ok (place, some n, slash)) :
    (∃ above, Enters t p above n place) ∧ slash = (p.bytes.getLast? == some Path.separator) := by
  unfold target at h
  cases taken : admissible p with
  | error e => simp [taken, bind, Except.bind] at h
  | ok u =>
    simp only [taken, bind, Except.bind] at h
    split at h
    next => cases h
    next last above cut =>
      split at h
      next => cases h
      next there walked =>
        split at h
        next inside =>
          by_cases dots : last = [Path.dot] ∨ last = [Path.dot, Path.dot]
          · simp [dots] at h
          · by_cases long : maxName < last.length
            · simp [dots, long] at h
            · simp only [dots, long, if_false, Except.ok.injEq, Prod.mk.injEq, Option.some.injEq] at h
              obtain ⟨rfl, rfl, rfl⟩ := h
              rw [not_or] at dots
              refine ⟨⟨above.reverse, taken, ?_, walks_of_walk walked, inside, dots.1, dots.2,
                Nat.le_of_not_lt long⟩, rfl⟩
              rw [← List.reverse_cons, ← cut, List.reverse_reverse]
              rfl
        next => cases h

namespace Enters

/-- What is put under the name is where the path leads, unless it is a link. -/
theorem walks_parts (e : Enters t p above n place) (found : t.node? (place ++ [n]) = some x)
    (solid : ∀ goal, x ≠ .link goal) :
    Walks t maxLinks (t.origin p) (parts p) (place ++ [n]) := by
  rw [e.spelled]
  exact e.walks.append fun _ => .enter e.inside e.plain found solid .stop

theorem lasts (e : Enters t p above n place) (l : Lasts t t') : Enters t' p above n place :=
  ⟨e.taken, e.spelled, l.origin p ▸ l.walks e.walks, l.directory _ e.inside, e.plain⟩

end Enters

/-! ## Directories -/

/-- A directory is made under a new name. -/
theorem exists_enters_of_makeDirectory (h : t.makeDirectory p = .ok t') :
    ∃ above n place, Enters t p above n place ∧ t.node? (place ++ [n]) = none ∧
      t' = t.put (place ++ [n]) .directory := by
  unfold makeDirectory at h
  cases goal : t.target p with
  | error e => simp [goal, bind, Except.bind] at h
  | ok names =>
    obtain ⟨place, n?, slash⟩ := names
    cases n? with
    | none => simp [goal, bind, Except.bind] at h
    | some n =>
      obtain ⟨⟨above, enters⟩, -⟩ := exists_enters_of_target goal
      simp only [goal, bind, Except.bind] at h
      split at h
      next free => exact ⟨above, n, place, enters, free, (Except.ok.inj h).symm⟩
      next => cases h

theorem concat_ne_nil : place ++ [n] ≠ [] := by simp

theorem lasts_of_makeDirectory (h : t.makeDirectory p = .ok t') : Lasts t t' := by
  obtain ⟨above, n, place, -, free, rfl⟩ := exists_enters_of_makeDirectory h
  exact .put_new concat_ne_nil free nofun

/-- Afterwards the path leads to it. -/
theorem Enters.locate_put (e : Enters t p above n place) (free : t.node? (place ++ [n]) = none) :
    (t.put (place ++ [n]) .directory).locate p = .ok (place ++ [n], .directory) := by
  have lasts : Lasts t (t.put (place ++ [n]) .directory) := .put_new concat_ne_nil free nofun
  have found : (t.put (place ++ [n]) .directory).node? (place ++ [n]) = some .directory :=
    node?_put_self concat_ne_nil
  exact ((e.lasts lasts).walks_parts found nofun).locate_eq found e.taken

theorem isDirectory_of_makeDirectory (h : t.makeDirectory p = .ok t') : t'.isDirectory p = true := by
  obtain ⟨above, n, place, enters, free, rfl⟩ := exists_enters_of_makeDirectory h
  exact isDirectory_iff.2 ⟨_, enters.locate_put free⟩

/-- If something is missing, it is not because the system would not take the path. -/
theorem admissible_of_missing (missing : t.makeDirectory p = .error .notFound) (spelled : p.bytes ≠ []) :
    admissible p = .ok () := by
  unfold makeDirectory target at missing
  cases taken : admissible p with
  | ok u => rfl
  | error e =>
    simp only [taken, bind, Except.bind, Except.error.injEq] at missing
    subst missing
    unfold admissible at taken
    rw [if_neg spelled] at taken
    split at taken
    · cases taken
    · split at taken <;> cases taken

/-- No directory is made where something stands already. -/
theorem makeDirectory_of_has (h : t.has p = true) : t.makeDirectory p = .error .exists := by
  obtain ⟨place, x, leads⟩ := has_iff.1 h
  obtain ⟨taken, walks, found⟩ := locate_eq_ok_iff.1 leads
  unfold makeDirectory target
  simp only [taken, bind, Except.bind]
  cases cut : ((Path.split p.bytes).filter fun part => part != []).reverse with
  | nil => rfl
  | cons last above =>
    have spelled : parts p = above.reverse ++ [last] := by
      rw [← List.reverse_cons, ← cut, List.reverse_reverse]
      rfl
    -- the walk passes the directory that is to hold the last name, and finds something there
    obtain ⟨more, onward⟩ : ∃ more, names p = above.reverse ++ last :: more := by
      rcases names_cases p with bare | dotted
      · exact ⟨[], bare.trans spelled⟩
      · exact ⟨[[Path.dot]], by rw [dotted, spelled, List.append_assoc]; rfl⟩
    rw [onward] at walks
    obtain ⟨left, between, first, later⟩ := walks.exists_between
    have inside := later.directory
    simp only [first.walk_eq, inside]
    cases later with
    | stay => simp
    | up => simp
    | enter _ plain found | follow _ plain found =>
      simp [plain.notDot, plain.notDots, Nat.not_lt.2 plain.short, found]

/-- Where something stands, there is no directory to be made. -/
theorem eq_of_ensureDirectory (h : t.has p = true) (made : t.ensureDirectory p = .ok t') : t' = t := by
  unfold ensureDirectory makeDirectories at made
  split at made
  next => exact (Except.ok.inj made).symm
  next =>
    simp only [makeDirectory_of_has h] at made
    split at made
    next => exact (Except.ok.inj made).symm
    next => cases made

/-- The ways in which a directory is made with those above it. -/
theorem makeDirectories_cases (named : p.components ≠ [])
    (made : makeDirectories (fuel + 1) t p = .ok t') :
    t.makeDirectory p = .ok t' ∨
    (t' = t ∧ t.isDirectory p = true) ∨
    t.makeDirectory p = .error .notFound ∧ ∃ q s, p.parent? = some q ∧
      makeDirectories fuel t q = .ok s ∧ (s.makeDirectory p = .ok t' ∨ t' = s ∧ s.isDirectory p = true) := by
  unfold makeDirectories at made
  rw [if_neg named] at made
  have already : ∀ {s : Tree} {e : FileError},
      (if s.isDirectory p then Except.ok s else .error e) = .ok t' → t' = s ∧ s.isDirectory p = true := by
    intro s e made
    split at made
    next is => exact ⟨(Except.ok.inj made).symm, is⟩
    next => cases made
  split at made
  next s first =>
    cases made
    exact .inl first
  next missing =>
    split at made
    next => cases made
    next q above =>
      cases upper : makeDirectories fuel t q with
      | error e => simp [upper, bind, Except.bind] at made
      | ok s =>
        simp only [upper, bind, Except.bind] at made
        refine .inr (.inr ⟨missing, q, s, above, upper, ?_⟩)
        split at made
        next first =>
          cases made
          exact .inl first
        next => exact .inr (already made)
  next => exact .inr (.inl (already made))

/-- A directory that is made with those above it is where the path leads. -/
theorem isDirectory_of_ensureDirectory (named : p.components ≠ [])
    (made : t.ensureDirectory p = .ok t') : t'.isDirectory p = true := by
  rcases makeDirectories_cases named made with first | ⟨rfl, is⟩ | ⟨-, q, s, -, -, later | ⟨rfl, is⟩⟩
  · exact isDirectory_of_makeDirectory first
  · exact is
  · exact isDirectory_of_makeDirectory later
  · exact is

/-! ## Files -/

/-- The permissions with which a file is written: a new one has those of every new file. -/
def modeAt (t : Tree) (place : Place) : Nat :=
  match t.node? place with
  | some (.file f) => f.mode
  | _ => 0o644

/-- What is written comes under the last name, unless a link stands there. -/
theorem exists_enters_of_write (h : t.write p content = .ok t') :
    ∃ above n place, Enters t p above n place ∧
      ((∃ goal, t.node? (place ++ [n]) = some (.link goal)) ∨ names p = parts p ∧
        (t.node? (place ++ [n]) = none ∨ ∃ f, t.node? (place ++ [n]) = some (.file f)) ∧
        ∃ g : File, t' = t.put (place ++ [n]) (.file g) ∧ g.content = content ∧
          g.mode = t.modeAt (place ++ [n])) := by
  unfold write at h
  cases goes : writePlace maxLinks.succ t p with
  | error e => simp [goes, bind, Except.bind] at h
  | ok there =>
    simp only [goes, bind, Except.bind] at h
    unfold writePlace at goes
    cases goal : t.target p with
    | error e => simp [goal, bind, Except.bind] at goes
    | ok found =>
      obtain ⟨place, n?, slash⟩ := found
      simp only [goal, bind, Except.bind] at goes
      cases n? with
      | none => cases goes
      | some n =>
        obtain ⟨⟨above, enters⟩, is⟩ := exists_enters_of_target goal
        -- a separator at the end is refused
        have bare : slash = false → names p = parts p := by
          rintro rfl
          have last : p.bytes.getLast? ≠ some Path.separator := by simpa using is.symm
          unfold names
          rw [if_neg last]
          rfl
        refine ⟨above, n, place, enters, ?_⟩
        simp only at goes
        split at goes
        next => cases goes
        next f found =>
          split at goes
          next => cases goes
          next noSlash =>
            obtain rfl := Except.ok.inj goes
            simp only [found] at h
            refine .inr ⟨bare (by simpa using noSlash), .inr ⟨f, found⟩, _, (Except.ok.inj h).symm, rfl, ?_⟩
            simp [modeAt, found]
        next goal found => exact .inl ⟨goal, found⟩
        next found =>
          split at goes
          next => cases goes
          next noSlash =>
            obtain rfl := Except.ok.inj goes
            simp only [found] at h
            refine .inr ⟨bare (by simpa using noSlash), .inl found, _, (Except.ok.inj h).symm, rfl, ?_⟩
            simp [modeAt, found]

/-- The permissions are set of the file that the path leads to. -/
theorem setMode_eq (leads : t.locate p = .ok (place, .file f)) :
    t.setMode p mode = .ok (t.put place (.file { f with mode })) := by
  unfold setMode
  simp [leads, bind, Except.bind]

end SnippetRunner.Files.Tree
