import Mathlib.Data.List.Permutation
import SnippetRunner.Proofs.Files.Region

/-!
# Files as they were written

Files are written into a new workspace one after another, and a later one may replace an earlier one, under
the same spelling or another one. A file then holds what was written last. Its permissions are another matter:
they are set when a file is to be executable and left alone otherwise, so a file stays executable once it was
asked to be, even when it is written anew without asking. Nothing but the directories above the files is made
on the way, and the directories that the workspace began with are there all along.
-/

namespace SnippetRunner.Files

open Files.Tree

variable {t t' s t₀ t₁ : Tree} {top place : Place} {n : Name} {ns ms before : List Name} {p root full : Path}
  {w : Workspace} {path : String} {content : List UInt8} {executable : Bool}
  {f : Launch.PlacedFile} {files : List Launch.PlacedFile}

/-- Whatever stands somewhere stands in a directory. -/
def Tree.Grounded (t : Tree) : Prop :=
  ∀ p n, t.node? (p ++ [n]) ≠ none → t.node? p = some .directory

/-- Nothing stands below something that is missing. -/
theorem Tree.Grounded.eq_none (grounded : t.Grounded) (free : t.node? top = none) (below : top <+: place) :
    t.node? place = none := by
  obtain ⟨more, rfl⟩ := below
  induction more using List.reverseRecOn with
  | nil => rwa [List.append_nil]
  | append_singleton more n ih =>
    by_contra there
    rw [← List.append_assoc] at there
    rw [grounded _ _ there] at ih
    cases ih

namespace Workspace

/-- There is nothing but directories from this place on. -/
def Bare (t : Tree) (top : Place) : Prop :=
  ∀ p, top <+: p → t.node? p = none ∨ t.node? p = some .directory

theorem Paved.bare (p : Paved t top ns t') (bare : Bare t top) : Bare t' top := by
  intro place below
  rcases bare place below with free | directory
  · by_cases now : t'.node? place = none
    · exact .inl now
    · obtain ⟨ks, begins, rfl⟩ := p.new place free now
      exact .inr (p.paved ks begins)
  · exact .inr (p.kept _ _ directory)

/-! ## New workspaces -/

/-- A directory that has just been made can be the root of a workspace. -/
theorem exists_based_of_makeDirectory (grounded : t.Grounded) (fresh : t.makeDirectory root = .ok t₁) :
    ∃ top, t₁.locate root = .ok (top, .directory) ∧ Based ⟨root⟩ t₁ top ∧ Bare t₁ top := by
  have lasts := lasts_of_makeDirectory fresh
  obtain ⟨above, n, place, enters, free, rfl⟩ := exists_enters_of_makeDirectory fresh
  have inside : (t.put (place ++ [n]) .directory).node? (place ++ [n]) = some .directory :=
    node?_put_self concat_ne_nil
  have bare : Bare (t.put (place ++ [n]) .directory) (place ++ [n]) := by
    intro p below
    by_cases is : p = place ++ [n]
    · exact .inr (is ▸ inside)
    · rw [node?_put_of_ne concat_ne_nil is]
      exact .inl (grounded.eq_none free below)
  refine ⟨place ++ [n], enters.locate_put free, ⟨?_, inside, fun p goal below found => ?_, above, n,
    enters.spelled, enters.plain.notDot⟩, bare⟩
  · exact (enters.lasts lasts).walks_parts inside nofun
  · rcases bare p below with free | directory
    · rw [free] at found
      cases found
    · rw [directory] at found
      cases found

/-- What holds of a workspace that directories are made in. -/
theorem based_of_createDirectories {ds : List String} (b : Based w t top) (bare : Bare t top)
    (inside : ∀ d ∈ ds, Launch.Local d)
    (made : ds.foldlM (fun t d => do
      let (_, t) ← w.createDirectory t d
      .ok t) t = .ok t') :
    Based w t' top ∧ Bare t' top ∧ Lasts t t' ∧ ∀ d ∈ ds, t'.isDirectory (w.root.child d) = true := by
  induction ds generalizing t with
  | nil =>
    cases made
    exact ⟨b, bare, .refl _, nofun⟩
  | cons d ds ih =>
    rw [List.foldlM_cons] at made
    unfold createDirectory at made
    cases first : t.ensureDirectory (w.root.child d) with
    | error e => simp [first, bind, Except.bind] at made
    | ok s =>
      simp only [first, bind, Except.bind] at made
      have on := b.goesOn_child (inside d (List.mem_cons_self ..))
      have paved := b.paved_of_ensureDirectory on first
      have there : s.isDirectory (w.root.child d) = true :=
        isDirectory_of_ensureDirectory (Path.components_ne_nil_of_named (b.named_of_goesOn on)) first
      obtain ⟨based, bare', lasts, rest⟩ := ih (b.lasts paved.lasts) (paved.bare bare)
        (fun d later => inside d (List.mem_cons_of_mem _ later)) made
      refine ⟨based, bare', paved.lasts.trans lasts, fun e among => ?_⟩
      rcases List.mem_cons.1 among with rfl | later
      · exact lasts.isDirectory there
      · exact rest e later

theorem local_of_mem_writableDirectories {d : String} (inside : d ∈ writableDirectories) :
    Launch.Local d := by
  rw [← Launch.checkPath_eq_ok_iff]
  revert d
  decide

/-- What holds of a workspace when it has been made. -/
theorem exists_based_of_create (grounded : t.Grounded) (fresh : t.makeDirectory root = .ok t₁)
    (made : create root t₁ = .ok (w, t₀)) :
    ∃ top, t₀.locate w.root = .ok (top, .directory) ∧ Based w t₀ top ∧ Bare t₀ top ∧
      ∀ d ∈ writableDirectories, t₀.isDirectory (w.root.child d) = true := by
  obtain ⟨top, leads, b, bare⟩ := exists_based_of_makeDirectory grounded fresh
  have there : t₁.has root = true := has_iff.2 ⟨top, _, leads⟩
  unfold create at made
  cases first : t₁.ensureDirectory root with
  | error e => simp [first, bind, Except.bind] at made
  | ok s =>
    obtain rfl := eq_of_ensureDirectory there first
    simp only [first, bind, Except.bind] at made
    split at made
    next => cases made
    next s others =>
      obtain ⟨rfl, rfl⟩ := Prod.mk.inj (Except.ok.inj made)
      obtain ⟨based, bare, lasts, directories⟩ := based_of_createDirectories b bare
        (fun _ => local_of_mem_writableDirectories) others
      exact ⟨top, lasts.locate leads based.inside, based, bare, directories⟩

/-! ## One file -/

/-- The names of a path in a workspace. -/
def namesIn (path : String) : List Name := (Path.ofText path).named

/-- What writing a file at a place below another one comes to: the directories on the way, the file with what
was written, and nothing else that is new or changed. -/
structure Wrote (t : Tree) (top : Place) (ns : List Name) (content : List UInt8) (executable : Bool)
    (t' : Tree) : Prop where
  working : t'.working = t.working
  self : ∃ g : File, t'.node? (top ++ ns) = some (.file g) ∧ g.content = content ∧
    g.mode = if executable then 0o755 else t.modeAt (top ++ ns)
  free : t.node? (top ++ ns) = none ∨ ∃ f, t.node? (top ++ ns) = some (.file f)
  above : ∀ ks n, ks ++ [n] <+: ns → t'.node? (top ++ ks) = some .directory
  kept : ∀ p x, p ≠ top ++ ns → t.node? p = some x → t'.node? p = some x
  new : ∀ p, p ≠ top ++ ns → t.node? p = none → t'.node? p ≠ none →
    ∃ ks n, ks ++ [n] <+: ns ∧ p = top ++ ks

theorem Wrote.lasts (h : Wrote t top ns content executable t') : Lasts t t' where
  working := h.working
  directory := by
    intro p found
    refine h.kept p _ ?_ found
    rintro rfl
    obtain ⟨f, is⟩ := exists_file_of_free h.free found
    cases is
  file := by
    intro p f found
    by_cases is : p = top ++ ns
    · obtain ⟨g, now, -⟩ := h.self
      exact ⟨g, is ▸ now⟩
    · exact ⟨f, h.kept p _ is found⟩
  link := by
    intro p goal
    by_cases is : p = top ++ ns
    · subst is
      obtain ⟨g, now, -⟩ := h.self
      rw [now]
      constructor
      · nofun
      · intro found
        obtain ⟨f, is⟩ := exists_file_of_free h.free found
        cases is
    · refine ⟨fun found => ?_, h.kept p _ is⟩
      cases old : t.node? p with
      | none =>
        obtain ⟨ks, n, begins, rfl⟩ := h.new p is old (by simp [found])
        rw [h.above ks n begins] at found
        cases found
      | some x =>
        rw [h.kept p x is old] at found
        exact found

/-- A checked path has a part. -/
theorem parts_ofText_ne_nil (inside : Launch.Local path) : parts (.ofText path) ≠ [] := by
  intro none
  obtain ⟨part, rest, cut⟩ := List.exists_cons_of_ne_nil (Path.split_ne_nil (Path.ofText path).bytes)
  have empty : ∀ part ∈ Path.split (Path.ofText path).bytes, part = [] := by
    simpa [parts] using none
  rw [cut] at empty
  obtain rfl := empty part (List.mem_cons_self ..)
  -- an empty part in front makes the path absolute, and alone it makes it empty
  by_cases more : rest = []
  · have bytes := Path.join_split (Path.ofText path).bytes
    rw [cut, more] at bytes
    apply inside.notEmpty
    have chars : path.toList = [] := Path.flatMap_utf8EncodeChar_inj bytes.symm
    exact String.toList_eq_nil_iff.1 chars
  · exact inside.relative (Path.isAbsolute_ofText_iff.1 (Path.isAbsolute_iff_split.2 ⟨rest, more, cut⟩))

/-- A path to which something can be written ends with a name. -/
theorem GoesOn.undotted_ne_nil (g : GoesOn w p ms) (nonempty : ms ≠ [])
    (e : Enters t p before n place) : undotted ms ≠ [] := by
  obtain ⟨ks, k, rfl⟩ := (List.eq_nil_or_concat ms).resolve_left nonempty
  have spelled := g.spelled.symm.trans e.spelled
  rw [List.concat_eq_append, ← List.append_assoc] at spelled
  obtain ⟨-, same⟩ := List.append_inj' spelled rfl
  rw [List.concat_eq_append, same, undotted_append, undotted_cons_of_ne e.plain.notDot]
  simp

/-- What is written comes to stand where the path leads. -/
theorem Based.exists_of_write (b : Based w t top) (g : GoesOn w p ms) (nonempty : ms ≠ [])
    (wrote : t.write p content = .ok t') :
    (∀ ks n, ks ++ [n] <+: undotted ms → t.node? (top ++ ks) = some .directory) ∧
      (t.node? (top ++ undotted ms) = none ∨ ∃ f, t.node? (top ++ undotted ms) = some (.file f)) ∧
      ∃ h : File, t' = t.put (top ++ undotted ms) (.file h) ∧ h.content = content ∧
        h.mode = t.modeAt (top ++ undotted ms) ∧ t'.locate p = .ok (top ++ undotted ms, .file h) := by
  obtain ⟨before, n, place, enters, what⟩ := exists_enters_of_write wrote
  obtain ⟨is, passed⟩ := b.eq_of_enters g nonempty enters
  rcases what with ⟨goal, link⟩ | ⟨bare, free, h, rfl, holds, mode⟩
  · exact absurd (is ▸ link) (b.solid _ goal (List.prefix_append _ _))
  · have lasts : Lasts t (t.put (place ++ [n]) (.file h)) := .put_file concat_ne_nil free
    have found : (t.put (place ++ [n]) (.file h)).node? (place ++ [n]) = some (.file h) :=
      node?_put_self concat_ne_nil
    have walks := (enters.lasts lasts).walks_parts found nofun
    rw [← is]
    refine ⟨passed, free, h, rfl, holds, mode, locate_eq_ok_iff.2 ⟨enters.taken, ?_, found⟩⟩
    rw [bare]
    exact walks

/-- Written and made executable if that is asked for, a file holds what was written. -/
theorem Based.exists_of_write_setMode (b : Based w t top) (g : GoesOn w p ms) (nonempty : ms ≠ [])
    (wrote : t.write p content = .ok s)
    (set : (if executable then s.setMode p 0o755 else .ok s) = .ok t') :
    (∀ ks n, ks ++ [n] <+: undotted ms → t.node? (top ++ ks) = some .directory) ∧
      (t.node? (top ++ undotted ms) = none ∨ ∃ f, t.node? (top ++ undotted ms) = some (.file f)) ∧
      t'.working = t.working ∧ ∃ h : File,
        (∀ q, t'.node? q = if q = top ++ undotted ms then some (.file h) else t.node? q) ∧
        h.content = content ∧ h.mode = (if executable then 0o755 else t.modeAt (top ++ undotted ms)) ∧
        t'.locate p = .ok (top ++ undotted ms, .file h) := by
  obtain ⟨passed, free, h, rfl, holds, mode, leads⟩ := b.exists_of_write g nonempty wrote
  have below : top ++ undotted ms ≠ [] := by
    intro empty
    have root := congrArg (t.put (top ++ undotted ms) (.file h)).node? empty
    obtain ⟨-, -, found⟩ := locate_eq_ok_iff.1 leads
    rw [found] at root
    cases root
  refine ⟨passed, free, ?_⟩
  cases executable with
  | false =>
    cases set
    exact ⟨rfl, h, node?_put below, holds, mode, leads⟩
  | true =>
    rw [if_pos rfl, setMode_eq leads] at set
    cases set
    have found := (locate_eq_ok_iff.1 leads).2.2
    have lasts : Lasts _ ((t.put _ (.file h)).put _ (.file { h with mode := 0o755 })) :=
      .put_file below (.inr ⟨h, found⟩)
    refine ⟨rfl, { h with mode := 0o755 }, fun q => ?_, holds, rfl,
      lasts.locate leads (node?_put_self below)⟩
    rw [node?_put below, node?_put below]
    split <;> rfl

/-- The directories above a file, and then the file. -/
theorem Paved.wrote {g : File} (paved : Paved t top ns.dropLast s) (proper : ns ≠ [])
    (passed : ∀ ks n, ks ++ [n] <+: ns → s.node? (top ++ ks) = some .directory)
    (free : s.node? (top ++ ns) = none ∨ ∃ f, s.node? (top ++ ns) = some (.file f))
    (working : t'.working = t.working)
    (nodes : ∀ q, t'.node? q = if q = top ++ ns then some (.file g) else s.node? q)
    (holds : g.content = content) (mode : g.mode = if executable then 0o755 else s.modeAt (top ++ ns)) :
    Wrote t top ns content executable t' := by
  -- a directory above the file is not the file
  have apart : ∀ {ks}, ks <+: ns.dropLast → ks ≠ ns := by
    rintro ks begins rfl
    have shorter := begins.length_le
    have some := List.length_pos_iff.2 proper
    rw [List.length_dropLast] at shorter
    omega
  have same : t.node? (top ++ ns) = s.node? (top ++ ns) := by
    cases old : t.node? (top ++ ns) with
    | some x => exact (paved.kept _ _ old).symm
    | none =>
      by_contra now
      obtain ⟨ks, begins, is⟩ := paved.new _ old (Ne.symm now)
      exact apart begins (List.append_cancel_left is).symm
  have modes : s.modeAt (top ++ ns) = t.modeAt (top ++ ns) := by
    unfold modeAt
    rw [same]
  refine ⟨working, ⟨g, by rw [nodes, if_pos rfl], holds, modes ▸ mode⟩, same ▸ free,
    fun ks n begins => ?_, fun p x other found => ?_, fun p other old now => ?_⟩
  · have other : top ++ ks ≠ top ++ ns := by
      intro is
      have longer := begins.length_le
      rw [List.append_cancel_left is, List.length_append, List.length_singleton] at longer
      omega
    rw [nodes, if_neg other]
    exact passed ks n begins
  · rw [nodes, if_neg other]
    exact paved.kept p x found
  · rw [nodes, if_neg other] at now
    obtain ⟨ks, begins, rfl⟩ := paved.new p old now
    rcases prefix_cases (begins.trans (List.dropLast_prefix ns)) with is | ⟨n, longer⟩
    · exact absurd is (apart begins)
    · exact ⟨ks, n, longer, rfl⟩

/-- What one call does that succeeds. Afterwards its path leads to the file. -/
theorem wrote_of_writeFile (b : Based w t top) (inside : Launch.Local path)
    (h : w.writeFile t path content executable = .ok (full, t')) :
    Wrote t top (namesIn path) content executable t' ∧
      ∃ g, t'.locate (w.root.child path) = .ok (top ++ namesIn path, .file g) := by
  have on := b.goesOn_child inside
  have nonempty := parts_ofText_ne_nil inside
  obtain ⟨above, up⟩ := Path.exists_parent?_of_named (b.named_of_goesOn on)
  unfold writeFile at h
  simp only [up] at h
  cases made : t.ensureDirectory above with
  | error e => simp [made, bind, Except.bind] at h
  | ok s =>
    simp only [made, bind, Except.bind] at h
    cases wrote : s.write (w.root.child path) content with
    | error e => simp [wrote] at h
    | ok s' =>
      simp only [wrote] at h
      have set : (if executable then s'.setMode (w.root.child path) 0o755 else .ok s') = .ok t' := by
        cases executable with
        | false =>
          obtain ⟨-, rfl⟩ := Prod.mk.inj (Except.ok.inj h)
          rfl
        | true =>
          simp only [if_true] at h ⊢
          split at h
          next => cases h
          next set =>
            obtain ⟨-, rfl⟩ := Prod.mk.inj (Except.ok.inj h)
            exact set
      obtain ⟨before, n, place, enters, -⟩ := exists_enters_of_write wrote
      have proper := on.undotted_ne_nil nonempty enters
      obtain ⟨ks, goes, shorter⟩ := b.goesOn_above on proper up
      have paved := b.paved_of_ensureDirectory goes made
      have wrote := (b.lasts paved.lasts).exists_of_write_setMode on nonempty wrote set
      rw [undotted_parts] at proper shorter wrote
      rw [shorter] at paved
      obtain ⟨passed, free, working, g, nodes, holds, mode, leads⟩ := wrote
      exact ⟨paved.wrote proper passed free (working.trans paved.working) nodes holds mode, g, leads⟩

/-! ## One file after another -/

/-- Writes files into the workspace, one after another. -/
def writeFiles (w : Workspace) (t : Tree) (files : List Launch.PlacedFile) : Except FileError Tree :=
  files.foldlM
    (fun t f => do
      let (_, t) ← w.writeFile t f.path f.content f.executable
      .ok t) t

/-- Files are written before others if all of them succeed. -/
theorem writeFiles_append_eq_ok_iff {more : List Launch.PlacedFile} :
    w.writeFiles t (files ++ more) = .ok t' ↔
      ∃ s, w.writeFiles t files = .ok s ∧ w.writeFiles s more = .ok t' := by
  have whole : w.writeFiles t (files ++ more) =
      w.writeFiles t files >>= fun s => w.writeFiles s more := List.foldlM_append ..
  rw [whole]
  cases w.writeFiles t files with
  | error e => exact ⟨nofun, fun ⟨_, first, _⟩ => nomatch first⟩
  | ok s => exact ⟨fun later => ⟨s, rfl, later⟩, fun ⟨_, first, later⟩ => Except.ok.inj first ▸ later⟩

theorem writeFiles_singleton_eq_ok_iff :
    w.writeFiles t [f] = .ok t' ↔
      ∃ full, w.writeFile t f.path f.content f.executable = .ok (full, t') := by
  unfold writeFiles
  rw [List.foldlM_cons]
  cases w.writeFile t f.path f.content f.executable with
  | error e => exact ⟨nofun, fun ⟨_, wrote⟩ => nomatch wrote⟩
  | ok result =>
    obtain ⟨full, s⟩ := result
    constructor
    · intro done
      cases done
      exact ⟨full, rfl⟩
    · rintro ⟨full, wrote⟩
      cases wrote
      rfl

/-- The last of the files that have this path. -/
def lastNamed (w : Workspace) (files : List Launch.PlacedFile) (p : Path) : Option Launch.PlacedFile :=
  files.reverse.find? fun f => (w.root.child f.path).same p

/-- Two checked paths are the same in the workspace if they have the same names. -/
theorem Based.same_child_iff {path' : String} (b : Based w t top) (inside : Launch.Local path)
    (inside' : Launch.Local path') :
    (w.root.child path).same (w.root.child path') = true ↔ namesIn path = namesIn path' := by
  have spelled := Path.bytes_ne_nil_of_named b.named
  unfold Path.same Path.child
  rw [beq_iff_eq, Path.components_append_named (isAbsolute_ofText_of_local inside) spelled,
    Path.components_append_named (isAbsolute_ofText_of_local inside') spelled, List.append_cancel_left_eq,
    List.map_inj_right fun _ _ same => Path.componentOf_injective same]
  rfl

/-- What files that were written one after another have made of a workspace. -/
structure Filled (w : Workspace) (t₀ : Tree) (top : Place) (files : List Launch.PlacedFile) (t : Tree) :
    Prop where
  lasts : Lasts t₀ t
  written : ∀ f ∈ files, ∃ last g, w.lastNamed files (w.root.child f.path) = some last ∧
    t.locate (w.root.child f.path) = .ok (top ++ namesIn f.path, .file g) ∧ g.content = last.content
  modes : ∀ ns g, t.node? (top ++ ns) = some (.file g) →
    (∃ f ∈ files, namesIn f.path = ns) ∧
    g.mode = if ∃ f ∈ files, namesIn f.path = ns ∧ f.executable = true then 0o755 else 0o644
  directories : ∀ p, t.node? p = some .directory ↔ t₀.node? p = some .directory ∨
    ∃ f ∈ files, ∃ ks n, ks ++ [n] <+: namesIn f.path ∧ p = top ++ ks

theorem filled_nil (bare : Bare t top) : Filled w t top [] t where
  lasts := .refl t
  written := nofun
  modes := by
    intro ns g found
    rcases bare _ (List.prefix_append top ns) with free | directory
    · rw [found] at free
      cases free
    · rw [found] at directory
      cases directory
  directories := by simp

namespace Filled

/-- The permissions that are left alone are those of a file that was written before, if there is one. -/
theorem modeAt_eq (h : Filled w t₀ top files t) (ns : List Name) :
    t.modeAt (top ++ ns) =
      if ∃ f ∈ files, namesIn f.path = ns ∧ f.executable = true then 0o755 else 0o644 := by
  unfold modeAt
  split
  next g found => exact (h.modes ns g found).2
  next noFile =>
    rw [if_neg]
    rintro ⟨f, inside, rfl, -⟩
    obtain ⟨last, g, -, leads, -⟩ := h.written f inside
    exact noFile g (locate_eq_ok_iff.1 leads).2.2

theorem concat (h : Filled w t₀ top files t) (b : Based w t top)
    (checked : ∀ g ∈ files ++ [f], Launch.Local g.path)
    (wrote : Wrote t top (namesIn f.path) f.content f.executable t')
    (leads : ∃ g, t'.locate (w.root.child f.path) = .ok (top ++ namesIn f.path, .file g)) :
    Filled w t₀ top (files ++ [f]) t' := by
  have inside : Launch.Local f.path := checked f (by simp)
  obtain ⟨g, now, holds, mode⟩ := wrote.self
  have last : ∀ e, w.lastNamed (files ++ [f]) (w.root.child e) =
      if (w.root.child f.path).same (w.root.child e) then some f else w.lastNamed files (w.root.child e) := by
    intro e
    unfold lastNamed
    rw [List.reverse_append, List.reverse_singleton, List.singleton_append, List.find?_cons]
    split <;> simp_all
  refine ⟨h.lasts.trans wrote.lasts, fun e among => ?_, fun ns e found => ?_, fun p => ?_⟩
  · have inside' := checked e among
    rw [last]
    by_cases same : namesIn f.path = namesIn e.path
    · rw [if_pos ((b.same_child_iff inside inside').2 same)]
      refine ⟨f, g, rfl, ?_, holds⟩
      rw [← same]
      rcases List.mem_append.1 among with before | only
      · obtain ⟨_, _, -, leads, -⟩ := h.written e before
        rw [← same] at leads
        exact wrote.lasts.locate leads now
      · obtain rfl := List.mem_singleton.1 only
        obtain ⟨g', leads⟩ := leads
        have found := (locate_eq_ok_iff.1 leads).2.2
        rw [now] at found
        cases found
        exact leads
    · rw [if_neg fun is => same ((b.same_child_iff inside inside').1 is)]
      rcases List.mem_append.1 among with before | only
      · obtain ⟨last, e', is, leads, holds⟩ := h.written e before
        have found := (locate_eq_ok_iff.1 leads).2.2
        have other : top ++ namesIn e.path ≠ top ++ namesIn f.path := fun is =>
          same (List.append_cancel_left is).symm
        exact ⟨last, e', is, wrote.lasts.locate leads (wrote.kept _ _ other found), holds⟩
      · exact absurd (by rw [List.mem_singleton.1 only]) same
  · have asked : (∃ d ∈ files ++ [f], namesIn d.path = ns ∧ d.executable = true) ↔
        (∃ d ∈ files, namesIn d.path = ns ∧ d.executable = true) ∨
          namesIn f.path = ns ∧ f.executable = true := by
      simp [or_and_right, exists_or]
    by_cases same : namesIn f.path = ns
    · subst same
      rw [now] at found
      cases found
      refine ⟨⟨f, by simp, rfl⟩, ?_⟩
      rw [mode, h.modeAt_eq]
      by_cases executable : f.executable = true <;> simp [executable]
    · have other : top ++ ns ≠ top ++ namesIn f.path := fun is => same (List.append_cancel_left is).symm
      cases old : t.node? (top ++ ns) with
      | none =>
        obtain ⟨ks, n, begins, is⟩ := wrote.new _ other old (by simp [found])
        rw [is, wrote.above ks n begins] at found
        cases found
      | some x =>
        rw [wrote.kept _ x other old] at found
        obtain rfl := Option.some.inj found
        obtain ⟨⟨d, before, is⟩, modes⟩ := h.modes ns e old
        refine ⟨⟨d, List.mem_append_left _ before, is⟩, ?_⟩
        simp only [modes, asked, same, false_and, or_false]
  · have more : (∃ d ∈ files ++ [f], ∃ ks n, ks ++ [n] <+: namesIn d.path ∧ p = top ++ ks) ↔
        (∃ d ∈ files, ∃ ks n, ks ++ [n] <+: namesIn d.path ∧ p = top ++ ks) ∨
          ∃ ks n, ks ++ [n] <+: namesIn f.path ∧ p = top ++ ks := by
      simp only [List.mem_append, List.mem_singleton, or_and_right, exists_or, exists_eq_left]
    rw [more, ← or_assoc, ← h.directories p]
    constructor
    · intro found
      have other : p ≠ top ++ namesIn f.path := by
        rintro rfl
        rw [now] at found
        cases found
      cases old : t.node? p with
      | none => exact .inr (wrote.new p other old (by simp [found]))
      | some x =>
        rw [wrote.kept p x other old] at found
        exact .inl found
    · rintro (before | ⟨ks, n, begins, rfl⟩)
      · exact wrote.lasts.directory p before
      · exact wrote.above ks n begins

end Filled

/-- What writing some files into a bare workspace has made of it. -/
theorem filled_of_writeFiles (b : Based w t₀ top) (bare : Bare t₀ top)
    (checked : ∀ f ∈ files, Launch.Local f.path) (filled : w.writeFiles t₀ files = .ok t) :
    Filled w t₀ top files t := by
  -- what is written last decides
  induction files using List.reverseRecOn generalizing t with
  | nil =>
    cases filled
    exact filled_nil bare
  | append_singleton files f ih =>
    obtain ⟨s, first, last⟩ := writeFiles_append_eq_ok_iff.1 filled
    obtain ⟨full, wrote⟩ := writeFiles_singleton_eq_ok_iff.1 last
    have before := ih (fun f inside => checked f (List.mem_append_left _ inside)) first
    have b' := b.lasts before.lasts
    obtain ⟨changed, leads⟩ := wrote_of_writeFile b' (checked f (by simp)) wrote
    exact before.concat b' checked changed leads

/-- What becomes of files that are written into a new workspace one after another, by paths that have been
checked. Each of these paths holds what the last call that names it has written. It can be executed if some
call that names it asked for that, be it the last one or not. The directories that are made are those above
written paths. And after each call the directories that a worker may write to are there. -/
theorem files_as_written (grounded : t.Grounded) (fresh : t.makeDirectory root = .ok t₁)
    (made : create root t₁ = .ok (w, t₀)) (checked : ∀ f ∈ files, Launch.checkPath f.path = .ok ())
    (filled : w.writeFiles t₀ files = .ok t') :
    (∀ f ∈ files, ∃ last, w.lastNamed files (w.root.child f.path) = some last ∧
      t'.read (w.root.child f.path) = .ok last.content ∧
      (t'.isExecutable (w.root.child f.path) = true ↔ ∃ g ∈ files,
        (w.root.child g.path).same (w.root.child f.path) = true ∧ g.executable = true)) ∧
    (∃ top, t₀.locate w.root = .ok (top, .directory) ∧
      ∀ p, t'.node? p = some .directory ↔ t₀.node? p = some .directory ∨
        ∃ f ∈ files, ∃ ks n, ks ++ [n] <+: (Path.ofText f.path).named ∧ p = top ++ ks) ∧
    ∀ done, done <+: files → ∃ s, w.writeFiles t₀ done = .ok s ∧
      ∀ d ∈ writableDirectories, s.isDirectory (w.root.child d) = true := by
  obtain ⟨top, root, b, bare, directories⟩ := exists_based_of_create grounded fresh made
  have inside : ∀ f ∈ files, Launch.Local f.path := fun f among =>
    Launch.checkPath_eq_ok_iff.1 (checked f among)
  have all := filled_of_writeFiles b bare inside filled
  refine ⟨fun f among => ?_, ⟨top, root, all.directories⟩, fun done begins => ?_⟩
  · obtain ⟨last, g, is, leads, holds⟩ := all.written f among
    refine ⟨last, is, ?_, ?_⟩
    · unfold Tree.read
      simp [leads, holds, bind, Except.bind]
    · have same : (∃ g ∈ files, (w.root.child g.path).same (w.root.child f.path) = true ∧
          g.executable = true) ↔ ∃ g ∈ files, namesIn g.path = namesIn f.path ∧ g.executable = true :=
        exists_congr fun g => and_congr_right fun among' => and_congr_left fun _ =>
          b.same_child_iff (inside g among') (inside f among)
      have mode := (all.modes _ g (locate_eq_ok_iff.1 leads).2.2).2
      rw [same, isExecutable_iff]
      by_cases asked : ∃ g ∈ files, namesIn g.path = namesIn f.path ∧ g.executable = true
      · rw [if_pos asked] at mode
        exact iff_of_true ⟨_, g, leads, by rw [mode]; decide⟩ asked
      · rw [if_neg asked] at mode
        refine iff_of_false ?_ asked
        rintro ⟨place, g', leads', runs⟩
        rw [leads] at leads'
        cases leads'
        rw [mode] at runs
        exact runs (by decide)
  · obtain ⟨later, rfl⟩ := begins
    obtain ⟨s, first, -⟩ := writeFiles_append_eq_ok_iff.1 filled
    have some := filled_of_writeFiles b bare (fun f among => inside f (List.mem_append_left _ among)) first
    exact ⟨s, first, fun d among => some.lasts.isDirectory (directories d among)⟩

/-- Some directories, each under its path. -/
def directoryTree (paths : List String) : Tree :=
  ⟨paths.map fun path => (parts (.ofText path), .directory), []⟩

theorem grounded_tmp : (directoryTree ["/tmp"]).Grounded := by
  intro p n there
  have only : ∀ q : Place, q ≠ [] → q ≠ [Text.utf8 "tmp"] → (directoryTree ["/tmp"]).node? q = none := by
    intro q below other
    have tmp : parts (.ofText "/tmp") = [Text.utf8 "tmp"] := by decide
    simp [directoryTree, node?, below, Ne.symm other, tmp]
  by_cases top : p = []
  · rw [top]
    rfl
  · refine absurd (only _ concat_ne_nil fun is => top ?_) there
    simpa using congrArg List.dropLast is

/-- A program that is written anew as a plain file, under another spelling, holds what is new, but it can
still be executed. -/
theorem files_as_written_anew :
    ∃ t', (Workspace.mk (.ofText "/tmp/w")).writeFiles
        (directoryTree ["/tmp", "/tmp/w", "/tmp/w/work", "/tmp/w/tmp", "/tmp/w/home"])
        [⟨"bin/tool", [1], true⟩, ⟨"./bin//tool", [2, 3], false⟩] = .ok t' ∧
      t'.read (.ofText "/tmp/w/./bin//tool") = .ok [2, 3] ∧
      t'.isExecutable (.ofText "/tmp/w/./bin//tool") = true := by
  let w : Workspace := ⟨.ofText "/tmp/w"⟩
  let made : Tree := directoryTree ["/tmp", "/tmp/w", "/tmp/w/work", "/tmp/w/tmp", "/tmp/w/home"]
  let first : Launch.PlacedFile := ⟨"bin/tool", [1], true⟩
  let second : Launch.PlacedFile := ⟨"./bin//tool", [2, 3], false⟩
  have fresh : (directoryTree ["/tmp"]).makeDirectory (.ofText "/tmp/w") =
      .ok (directoryTree ["/tmp", "/tmp/w"]) := by cbv
  have created : create (.ofText "/tmp/w") (directoryTree ["/tmp", "/tmp/w"]) = .ok (w, made) := by cbv
  have wrote : w.writeFiles made [first, second] = .ok
      ((made.put (parts (.ofText "/tmp/w/bin")) .directory).put (parts (.ofText "/tmp/w/bin/tool"))
        (.file ⟨[2, 3], 0o755, 0⟩)) := by cbv
  obtain ⟨each, -, -⟩ := files_as_written grounded_tmp fresh created
    (by decide) wrote
  obtain ⟨last, is, holds, runs⟩ := each second (by simp)
  have spelled : w.root.child second.path = .ofText "/tmp/w/./bin//tool" := by decide
  have latest : w.lastNamed [first, second] (w.root.child second.path) = some second := by decide
  obtain rfl := Option.some.inj (is.symm.trans latest)
  have again : (w.root.child first.path).same (w.root.child second.path) = true := by decide
  have runs := runs.2 ⟨first, by simp, again, rfl⟩
  rw [spelled] at holds runs
  exact ⟨_, wrote, holds, runs⟩

end Workspace

end SnippetRunner.Files
