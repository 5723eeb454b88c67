import SnippetRunner.Proofs.Interpreter.Readable
import SnippetRunner.Proofs.Json.RoundTrip
import SnippetRunner.Proofs.Language.Spelling
import SnippetRunner.Proofs.Text.Encoding

/-!
# The program that is launched

Probing an interpreter ends in a profile, and the launch plan starts the program that the profile names.
On the host where the interpreter was probed that program is an absolute path to a file that can be
executed, and it stands below a path that the profile makes readable; for Python so does what the program
is a link to. The paths that a profile makes readable are all there, and a plan grants each of them for
execution.

The readable path that covers the program is the installation of the program, or a broader one that the
interpreter has named. So the proofs follow the installation on its way into the profile: it is found above
the program, it is there because the walk to the program passes it, it is the first spelling of itself among
the sources, and what takes its place in the profile covers it.
-/

namespace SnippetRunner.Interpreter

open SnippetRunner (Path)

variable {h : Host} {t : Files.Tree} {binary dir real : Path}

/-! ## Programs and their installations -/

/-- The installation of a program is above it. -/
theorem startsWith_installation? (place : installation? binary = some dir) :
    binary.startsWith dir = true := by
  obtain ⟨-, -, one | ⟨two, -⟩⟩ := installation?_cases place
  · rw [Path.startsWith_iff, one]
    exact List.dropLast_prefix _
  · rw [Path.startsWith_iff, two]
    exact (List.dropLast_prefix _).trans (List.dropLast_prefix _)

/-- It is there if the program is, for the walk to the program passes it. -/
theorem has_installation? (absolute : binary.isAbsolute = true) (stands : t.has binary = true)
    (place : installation? binary = some dir) : t.has dir = true := by
  unfold installation? at place
  split at place
  next => cases place
  next bin parent =>
    have inBin : t.has bin = true := Files.Tree.has_of_parent? absolute parent stands
    split at place
    next =>
      cases place
      exact inBin
    next above grandparent =>
      split at place
      · cases place
        have absolute' : bin.isAbsolute = true := (Path.prefix_of_parent? parent absolute).1
        exact Files.Tree.has_of_parent? absolute' grandparent inBin
      · cases place
        exact inBin

theorem has_of_isExecutable (runs : t.isExecutable binary = true) : t.has binary = true := by
  obtain ⟨place, f, leads, -⟩ := Files.Tree.isExecutable_iff.1 runs
  exact Files.Tree.has_iff.2 ⟨place, _, leads⟩

/-- A program that can be executed has an installation that is there and covers it. -/
theorem exists_installation? (absolute : binary.isAbsolute = true)
    (runs : t.isExecutable binary = true) :
    ∃ dir, installation? binary = some dir ∧ binary.startsWith dir = true ∧ t.has dir = true := by
  obtain ⟨place, f, leads, -⟩ := Files.Tree.isExecutable_iff.1 runs
  have notEmpty : binary.components ≠ [] := by
    intro empty
    rw [Path.isAbsolute_iff, empty] at absolute
    cases absolute
  -- the binary is a file, so it is not the root and there is a directory above it
  have below : binary.parent? ≠ none := by
    rw [Ne, Path.parent?_eq_none_iff, not_or]
    exact ⟨notEmpty, Files.Tree.components_ne_root absolute leads⟩
  obtain ⟨dir, found⟩ : ∃ dir, installation? binary = some dir := by
    obtain ⟨bin, parent⟩ := Option.ne_none_iff_exists'.1 below
    unfold installation?
    rw [parent]
    simp only
    split
    · exact ⟨bin, rfl⟩
    · split <;> exact ⟨_, rfl⟩
  exact ⟨dir, found, startsWith_installation? found,
    has_installation? absolute (has_of_isExecutable runs) found⟩

/-- What a program is a link to can be executed as well. -/
theorem isExecutable_of_canonical (absolute : binary.isAbsolute = true)
    (runs : t.isExecutable binary = true) (target : t.canonical binary = .ok real) :
    t.isExecutable real = true := by
  obtain ⟨place, f, leads, mode⟩ := Files.Tree.isExecutable_iff.1 runs
  rw [← Files.Tree.locate_of_canonical absolute target] at leads
  exact Files.Tree.isExecutable_iff.2 ⟨place, f, leads, mode⟩

/-! ## Profiles -/

/-- A worker can be launched with the profile on a host with these files. -/
structure Profile.Launchable (profile : Profile) (t : Files.Tree) : Prop where
  absolute : profile.executable.isAbsolute = true
  executable : t.isExecutable profile.executable = true
  readable : ∃ e ∈ profile.readable, profile.executable.startsWith e = true
  /-- Whatever is made readable is there. -/
  stands : ∀ e ∈ profile.readable, t.has e = true

/-- Of paths that are made readable in a new profile each one is covered, and nothing else comes in. -/
theorem covered_withAllReadable {profile : Profile} (new : profile.readable = []) (paths : List Path) :
    (∀ p ∈ paths, ∃ e ∈ (profile.withAllReadable paths).readable, p.startsWith e = true) ∧
      ∀ e ∈ (profile.withAllReadable paths).readable, e ∈ paths := by
  have reduces := Path.Reduces.foldl_addCover paths
  rw [readable_withAllReadable, new]
  exact ⟨reduces.covers, fun e inside => List.mem_of_getElem? (reduces.spelled e inside)⟩

/-- What is covered by a path that is made readable is covered by what the profile keeps of it. -/
theorem covered_of_mem {profile : Profile} (new : profile.readable = []) {paths : List Path} {p : Path}
    (made : dir ∈ paths) (below : p.startsWith dir = true) :
    ∃ e ∈ (profile.withAllReadable paths).readable, p.startsWith e = true := by
  obtain ⟨e, kept, covers⟩ := (covered_withAllReadable new paths).1 dir made
  exact ⟨e, kept, Path.startsWith_trans below covers⟩

theorem executable_withAllReadable (profile : Profile) (paths : List Path) :
    (profile.withAllReadable paths).executable = profile.executable := by
  unfold Profile.withAllReadable
  induction paths generalizing profile with
  | nil => rfl
  | cons path paths ih => exact ih _

theorem executable?_getD (runs : h.tree.isExecutable binary = true) (p : Path) :
    h.tree.isExecutable ((h.executable? p).getD binary) = true := by
  unfold Host.executable?
  split
  next found => exact found
  next => exact runs

/-- A line with a record is what is written of the record, once the blanks around it are gone. -/
theorem trim_line (ms : List (String × Json.Value)) :
    Text.trim ((Json.Value.record ms).write ++ "\n") = (Json.Value.record ms).write := by
  have tight : Language.Tight (Json.Value.record ms).write.toList := by
    unfold Json.Value.record Json.Value.write Json.writeTokens
    rw [String.toList_ofList]
    unfold Json.Value.tokens
    constructor
    · intro c first
      cases first
      decide
    · intro c last
      rw [List.flatMap_append] at last
      simp only [List.flatMap_singleton, Json.Token.chars, List.getLast?_append_cons,
        List.getLast?_singleton] at last
      cases last
      decide
  have line : (Json.Value.record ms).write ++ "\n" =
      String.ofList ([] ++ (Json.Value.record ms).write.toList ++ ['\n']) := by
    rw [← String.toList_inj]
    simp
  have blank : ∀ c ∈ ['\n'], Text.isBlank c = true := List.forall_mem_singleton.2 rfl
  rw [line, Language.trim_surrounded (List.forall_mem_nil _) blank tight, String.ofList_toList]

/-- A record that a program prints on a line is read back. -/
theorem parse?_printed {ms : List (String × Json.Value)} (plain : ∀ m ∈ ms, m.2.Plain) :
    Json.parse? (Text.trim (Text.decodeLossy
      (Text.utf8 ((Json.Value.record ms).write ++ "\n")))) = some (.record ms) := by
  rw [Text.decodeLossy_utf8, trim_line, Json.parse?_write (Json.plain_record plain)]

namespace Python

variable {d : Description}

/-- What the interpreter prints describes it so. -/
def Prints (h : Host) (binary : Path) (d : Description) : Prop :=
  ∃ r, h.run binary = .ok r ∧ r.success = true ∧
    (Json.parse? (Text.trim (Text.decodeLossy r.stdout))).bind Description.ofJson? = some d

theorem ask_of_prints (prints : Prints h binary d) : ask h binary = .ok (profile h binary d) := by
  obtain ⟨r, ran, success, described⟩ := prints
  unfold ask
  simp only [ran, success, described]
  rfl

/-- The program is the one that the interpreter names or the binary that was probed, and both are
absolute and can be executed. -/
theorem runs_program (absolute : binary.isAbsolute = true) (runs : h.tree.isExecutable binary = true) :
    (program h binary d).isAbsolute = true ∧ h.tree.isExecutable (program h binary d) = true := by
  unfold program
  split
  next named =>
    refine ⟨?_, executable?_getD runs _⟩
    unfold Host.executable?
    split
    · exact named
    · exact absolute
  next => exact ⟨absolute, runs⟩

/-- The sources begin with the installations of the program and of what it is a link to. -/
theorem exists_kept_source (absolute : binary.isAbsolute = true)
    (runs : h.tree.isExecutable binary = true) {p : Path}
    (source : p = program h binary d ∨ h.tree.canonical (program h binary d) = .ok p) :
    ∃ dir ∈ (Path.sortUnique (sources h binary d)).filter h.tree.has, p.startsWith dir = true := by
  obtain ⟨named, executes⟩ := runs_program (d := d) absolute runs
  obtain ⟨dir, place, covers, stands⟩ := exists_installation? named executes
  -- the set keeps the first spelling, and the installation comes first among the sources
  have first : (sources h binary d).find? dir.same = some dir := by
    unfold sources
    rw [place]
    exact List.find?_cons_of_pos (beq_self_eq_true _)
  rcases source with rfl | target
  · exact ⟨dir, List.mem_filter.2 ⟨Path.mem_sortUnique_of_find? first, stands⟩, covers⟩
  · obtain ⟨dir', place', covers', stands'⟩ := exists_installation? (isAbsolute_of_canonical target)
      (isExecutable_of_canonical named executes target)
    -- both installations may be the same, and then the first spelling is kept
    by_cases same : dir'.same dir = true
    · refine ⟨dir, List.mem_filter.2 ⟨Path.mem_sortUnique_of_find? first, stands⟩, ?_⟩
      exact Path.startsWith_trans covers' (Path.startsWith_of_same same)
    · have second : (sources h binary d).find? dir'.same = some dir' := by
        unfold sources
        rw [place, target]
        simp only [place']
        show (dir :: dir' :: _).find? _ = _
        rw [List.find?_cons_of_neg same]
        exact List.find?_cons_of_pos (beq_self_eq_true _)
      exact ⟨dir', List.mem_filter.2 ⟨Path.mem_sortUnique_of_find? second, stands'⟩, covers'⟩

theorem executable_profile (h : Host) (binary : Path) (d : Description) :
    (profile h binary d).executable = program h binary d :=
  executable_withAllReadable _ _

theorem launchable_profile (absolute : binary.isAbsolute = true)
    (runs : h.tree.isExecutable binary = true) (d : Description) :
    (profile h binary d).Launchable h.tree ∧
      ∀ real, h.tree.canonical (profile h binary d).executable = .ok real →
        ∃ e ∈ (profile h binary d).readable, real.startsWith e = true := by
  have made : profile h binary d = Profile.withAllReadable
      { Profile.new binary with executable := program h binary d, version := some d.version }
      ((Path.sortUnique (sources h binary d)).filter h.tree.has) := rfl
  have named := executable_profile h binary d
  obtain ⟨absolute', runs'⟩ := runs_program (d := d) absolute runs
  have covered : ∀ p, p = program h binary d ∨ h.tree.canonical (program h binary d) = .ok p →
      ∃ e ∈ (profile h binary d).readable, p.startsWith e = true := by
    intro p source
    obtain ⟨dir, kept, below⟩ := exists_kept_source absolute runs source
    rw [made]
    exact covered_of_mem rfl kept below
  constructor
  · refine ⟨named ▸ absolute', named ▸ runs', named ▸ covered _ (.inl rfl), fun e inside => ?_⟩
    rw [made] at inside
    exact (List.mem_filter.1 ((covered_withAllReadable rfl _).2 e inside)).2
  · intro real target
    rw [named] at target
    exact covered real (.inr target)

end Python

namespace Node

variable {d : Description}

/-- What the interpreter prints describes it so. -/
def Prints (h : Host) (binary : Path) (d : Description) : Prop :=
  ∃ r, h.run binary = .ok r ∧ r.success = true ∧
    (Json.parse? (Text.trim (Text.decodeLossy r.stdout))).bind Description.ofJson? = some d

theorem ask_of_prints (prints : Prints h binary d) : ask h binary = .ok (profile h binary d) := by
  obtain ⟨r, ran, success, described⟩ := prints
  unfold ask
  simp only [ran, success, described]
  rfl

/-- A profile is made of what the interpreter prints. -/
theorem exists_prints_of_ask {profile : Profile} (asked : ask h binary = .ok profile) :
    ∃ d, Prints h binary d ∧ profile = Node.profile h binary d := by
  unfold ask at asked
  split at asked
  next => cases asked
  next r ran =>
    split at asked
    next => cases asked
    next success =>
      split at asked
      next d described => exact ⟨d, ⟨r, ran, by simpa using success, described⟩, (Except.ok.inj asked).symm⟩
      next => cases asked

theorem executable_profile (h : Host) (binary : Path) (d : Description) :
    (profile h binary d).executable = program h binary d :=
  executable_withAllReadable _ _

theorem launchable_profile (absolute : binary.isAbsolute = true)
    (runs : h.tree.isExecutable binary = true) (named : (Path.ofText d.executable).isAbsolute = true) :
    (profile h binary d).Launchable h.tree := by
  have made : profile h binary d = Profile.withAllReadable
      { Profile.new binary with executable := program h binary d, version := some d.version }
      ((installation? (program h binary d)).toList.filter h.tree.has) := rfl
  have is := executable_profile h binary d
  have runs' : h.tree.isExecutable (program h binary d) = true := executable?_getD runs _
  have absolute' : (program h binary d).isAbsolute = true := by
    unfold program Host.executable?
    split
    · exact named
    · exact absolute
  obtain ⟨dir, place, covers, stands⟩ := exists_installation? absolute' runs'
  refine ⟨is ▸ absolute', is ▸ runs', ?_, fun e inside => ?_⟩
  · rw [is, made]
    exact covered_of_mem rfl (List.mem_filter.2 ⟨Option.mem_toList.2 place, stands⟩) covers
  · rw [made] at inside
    exact (List.mem_filter.1 ((covered_withAllReadable rfl _).2 e inside)).2

end Node

/-! ## Plans -/

theorem Runtime.command_planOf (r : Runtime) (profile : Profile) :
    (r.planOf profile).command = r.command r.settings profile.executable.display r.driver.1 := by
  have environment : ∀ (entries : Launch.Environment) (plan : Launch.Plan),
      (entries.foldl (fun plan e => plan.withEnv e.1 e.2) plan).command = plan.command := by
    intro entries
    induction entries with
    | nil => exact fun _ => rfl
    | cons e entries ih => exact fun plan => ih _
  unfold planOf
  rw [environment]
  rfl

/-- The command of a built-in language begins with its interpreter. -/
theorem Runtime.BuiltIn.command {r : Runtime} (builtIn : r.BuiltIn) (program file : String) :
    (r.command r.settings program file).head? = some program := by
  obtain ⟨settings, driver, rfl | rfl⟩ := builtIn <;> rfl

/-- A plan is made of the profile that the cache or the probe gives. -/
theorem Runtime.plan_of_profile {r : Runtime} {c : Cache} {found : Path} {profile : Profile}
    (located : r.probe.locate h = .ok found)
    (answered : (c.getOrAsk h r.probe found).1 = .ok profile) :
    (r.plan h c).1 = .ok (r.planOf profile) := by
  unfold plan
  simp only [located]
  split
  next got => simp [got] at answered
  next got =>
    rw [got] at answered
    cases answered
    rfl

/-! ## Both languages -/

/-- What a worker of a built-in language is launched with. Whenever an absolute path to a program that can
be executed is probed, and whatever the program prints, Python's profile names an absolute path to a program
that can be executed and that stands below a readable path; so does the path that it leads to by way of
links, if it has one. Node's profile names such a program too, provided that the interpreter names an absolute
path as its own. All that is readable was there when the program was probed. And a plan that is made with a
profile, whether it is a new answer or one of the cache, starts the program that the profile names and grants
for execution whatever the profile makes readable. -/
theorem launchable_of_ask {h : Host} {binary : Path} (absolute : binary.isAbsolute = true)
    (runs : h.tree.isExecutable binary = true) :
    (∀ profile, Python.ask h binary = .ok profile → profile.Launchable h.tree ∧
      ∀ real, h.tree.canonical profile.executable = .ok real →
        ∃ e ∈ profile.readable, real.startsWith e = true) ∧
    (∀ profile, Node.ask h binary = .ok profile →
      (∀ d, Node.Prints h binary d → (Path.ofText d.executable).isAbsolute = true) →
        profile.Launchable h.tree) ∧
    ∀ (r : Runtime) (c : Cache) (found : Path) (profile : Profile), r.BuiltIn →
      r.probe.locate h = .ok found → (c.getOrAsk h r.probe found).1 = .ok profile →
        ∃ plan, (r.plan h c).1 = .ok plan ∧
          plan.command.head? = some profile.executable.display ∧
          ∀ e ∈ profile.readable, .readExecute e ∈ plan.grants := by
  refine ⟨fun profile asked => ?_, fun profile asked named => ?_, ?_⟩
  · obtain ⟨d, made⟩ := Python.exists_profile_of_ask asked
    rw [made]
    exact Python.launchable_profile absolute runs d
  · obtain ⟨d, prints, made⟩ := Node.exists_prints_of_ask asked
    rw [made]
    exact Node.launchable_profile absolute runs (named d prints)
  · intro r c found profile builtIn located answered
    refine ⟨r.planOf profile, Runtime.plan_of_profile located answered, ?_, fun e inside => ?_⟩
    · rw [Runtime.command_planOf]
      exact builtIn.command _ _
    · rw [Runtime.grants_planOf]
      exact List.mem_append_left _ (List.mem_map_of_mem inside)

/-- What the interpreter of a virtual environment tells of itself, if it cannot tell its own path. -/
def linkedDescription : List (String × Json.Value) :=
  [("version", .text "3.12.1"), ("prefix", .text "/venv"), ("base_prefix", .text "/usr"),
    ("exec_prefix", .text "/venv"), ("base_exec_prefix", .text "/usr")]

/-- A host with a virtual environment, whose interpreter is a link to the one of the system. -/
def linkedHost : Host where
  tree := ⟨[([Text.utf8 "usr"], .directory), ([Text.utf8 "usr", Text.utf8 "bin"], .directory),
    ([Text.utf8 "usr", Text.utf8 "bin", Text.utf8 "python3.12"], .file ⟨[], 0o755, 0⟩),
    ([Text.utf8 "venv"], .directory), ([Text.utf8 "venv", Text.utf8 "bin"], .directory),
    ([Text.utf8 "venv", Text.utf8 "bin", Text.utf8 "python3"],
      .link (.ofText "/usr/bin/python3.12"))], []⟩
  environment := []
  run := fun _ => .ok ⟨true, Text.utf8 ((Json.Value.record linkedDescription).write ++ "\n"), []⟩

/-- The walk to that interpreter ends at the one of the system. -/
theorem locate_linked : linkedHost.tree.locate (.ofText "/venv/bin/python3") =
    .ok ([Text.utf8 "usr", Text.utf8 "bin", Text.utf8 "python3.12"], .file ⟨[], 0o755, 0⟩) := by
  have plain : ∀ s ∈ ["usr", "bin", "venv", "python3", "python3.12"],
      Files.Tree.IsPlain (Text.utf8 s) := by
    intro s inside
    simp only [List.mem_cons, List.not_mem_nil, or_false] at inside
    rcases inside with rfl | rfl | rfl | rfl | rfl <;> exact ⟨by decide, by decide, by decide⟩
  refine Files.Tree.locate_eq_ok_iff.2 ⟨rfl, ?_, rfl⟩
  show Files.Tree.Walks _ _ [] [Text.utf8 "venv", Text.utf8 "bin", Text.utf8 "python3"] _
  refine .enter rfl (plain "venv" (by simp)) rfl nofun ?_
  refine .enter rfl (plain "bin" (by simp)) rfl nofun ?_
  refine .follow rfl (plain "python3" (by simp)) rfl ?_
  show Files.Tree.Walks _ _ [] [Text.utf8 "usr", Text.utf8 "bin", Text.utf8 "python3.12"] _
  refine .enter rfl (plain "usr" (by simp)) rfl nofun ?_
  refine .enter rfl (plain "bin" (by simp)) rfl nofun ?_
  exact .enter rfl (plain "python3.12" (by simp)) rfl nofun .stop

theorem isExecutable_linked : linkedHost.tree.isExecutable (.ofText "/venv/bin/python3") = true :=
  Files.Tree.isExecutable_iff.2 ⟨_, _, locate_linked, by decide⟩

theorem canonical_linked : linkedHost.tree.canonical (.ofText "/venv/bin/python3") =
    .ok (.ofText "/usr/bin/python3.12") :=
  Files.Tree.canonical_eq_ok_iff.2 ⟨_, _, locate_linked, rfl, rfl⟩

/-- How it describes itself to the probe. -/
def linkedPython : Python.Description := ⟨"3.12.1", "", ["/venv", "/usr", "/venv", "/usr"], []⟩

theorem parse?_linked :
    Json.parse? (Text.trim (Text.decodeLossy
      (Text.utf8 ((Json.Value.record linkedDescription).write ++ "\n")))) =
      some (.record linkedDescription) := by
  refine parse?_printed fun m inside => ?_
  simp only [linkedDescription, List.mem_cons, List.not_mem_nil, or_false] at inside
  rcases inside with rfl | rfl | rfl | rfl | rfl <;> exact Json.plain_text _

theorem Python.prints_linked (binary : Path) : Python.Prints linkedHost binary linkedPython := by
  refine ⟨_, rfl, rfl, ?_⟩
  rw [parse?_linked]
  rfl

/-- What Node tells of itself: the program is the one at the end of the link. -/
def renamedDescription : List (String × Json.Value) :=
  [("version", .text "v20.11.0"), ("execPath", .text "/usr/bin/node")]

/-- A host on which Node is found under its other name, which is a link. -/
def renamedHost : Host where
  tree := ⟨[([Text.utf8 "usr"], .directory), ([Text.utf8 "usr", Text.utf8 "bin"], .directory),
    ([Text.utf8 "usr", Text.utf8 "bin", Text.utf8 "node"], .file ⟨[], 0o755, 0⟩),
    ([Text.utf8 "usr", Text.utf8 "bin", Text.utf8 "nodejs"], .link (.ofText "/usr/bin/node"))], []⟩
  environment := []
  run := fun _ => .ok ⟨true, Text.utf8 ((Json.Value.record renamedDescription).write ++ "\n"), []⟩

theorem locate_renamed : renamedHost.tree.locate (.ofText "/usr/bin/nodejs") =
    .ok ([Text.utf8 "usr", Text.utf8 "bin", Text.utf8 "node"], .file ⟨[], 0o755, 0⟩) := by
  have plain : ∀ s ∈ ["usr", "bin", "node", "nodejs"], Files.Tree.IsPlain (Text.utf8 s) := by
    intro s inside
    simp only [List.mem_cons, List.not_mem_nil, or_false] at inside
    rcases inside with rfl | rfl | rfl | rfl <;> exact ⟨by decide, by decide, by decide⟩
  refine Files.Tree.locate_eq_ok_iff.2 ⟨rfl, ?_, rfl⟩
  show Files.Tree.Walks _ _ [] [Text.utf8 "usr", Text.utf8 "bin", Text.utf8 "nodejs"] _
  refine .enter rfl (plain "usr" (by simp)) rfl nofun ?_
  refine .enter rfl (plain "bin" (by simp)) rfl nofun ?_
  refine .follow rfl (plain "nodejs" (by simp)) rfl ?_
  show Files.Tree.Walks _ _ [] [Text.utf8 "usr", Text.utf8 "bin", Text.utf8 "node"] _
  refine .enter rfl (plain "usr" (by simp)) rfl nofun ?_
  refine .enter rfl (plain "bin" (by simp)) rfl nofun ?_
  exact .enter rfl (plain "node" (by simp)) rfl nofun .stop

theorem isExecutable_renamed : renamedHost.tree.isExecutable (.ofText "/usr/bin/nodejs") = true :=
  Files.Tree.isExecutable_iff.2 ⟨_, _, locate_renamed, by decide⟩

theorem Node.prints_renamed_iff {d : Node.Description} :
    Node.Prints renamedHost binary d ↔ d = ⟨"v20.11.0", "/usr/bin/node"⟩ := by
  have described : (Json.parse? (Text.trim (Text.decodeLossy (Text.utf8
      ((Json.Value.record renamedDescription).write ++ "\n"))))).bind Node.Description.ofJson? =
        some ⟨"v20.11.0", "/usr/bin/node"⟩ := by
    rw [parse?_printed]
    · rfl
    · intro m inside
      simp only [renamedDescription, List.mem_cons, List.not_mem_nil, or_false] at inside
      rcases inside with rfl | rfl <;> exact Json.plain_text _
  constructor
  · rintro ⟨r, ran, -, described'⟩
    cases ran
    exact Option.some.inj (described'.symm.trans described)
  · rintro rfl
    exact ⟨_, rfl, rfl, described⟩

/-- Node's profile names the program that the link leads to. -/
theorem Node.ask_renamed :
    ∃ profile, Node.ask renamedHost (.ofText "/usr/bin/nodejs") = .ok profile ∧
      profile.executable = .ofText "/usr/bin/node" := by
  have real : renamedHost.tree.canonical (.ofText "/usr/bin/nodejs") = .ok (.ofText "/usr/bin/node") :=
    Files.Tree.canonical_eq_ok_iff.2 ⟨_, _, locate_renamed, rfl, rfl⟩
  have runs := isExecutable_of_canonical (by decide) isExecutable_renamed real
  refine ⟨_, Node.ask_of_prints (Node.prints_renamed_iff.2 rfl), ?_⟩
  rw [Node.executable_profile]
  unfold Node.program Host.executable?
  rw [if_pos runs]
  rfl

/-- Node, configured by its other name. -/
def renamedRuntime : Runtime :=
  nodeRuntime { RuntimeSettings.standard with binary := some (.ofText "/usr/bin/nodejs") } []

theorem locate_renamedRuntime :
    renamedRuntime.probe.locate renamedHost = .ok (.ofText "/usr/bin/nodejs") := by
  have found : renamedRuntime.probe.detect renamedHost = some (.ofText "/usr/bin/nodejs") :=
    if_pos isExecutable_renamed
  unfold Probe.locate
  rw [found]

/-- An empty cache has it asked. -/
theorem getOrAsk_renamed {profile : Profile}
    (asked : Node.ask renamedHost (.ofText "/usr/bin/nodejs") = .ok profile) :
    (Cache.empty.getOrAsk renamedHost renamedRuntime.probe (.ofText "/usr/bin/nodejs")).1 =
      .ok profile := by
  have there : renamedHost.tree.modified (.ofText "/usr/bin/nodejs") = .ok 0 := by
    unfold Files.Tree.modified
    rw [locate_renamed]
    rfl
  have asked' : renamedRuntime.probe.ask renamedHost (.ofText "/usr/bin/nodejs") = .ok profile := asked
  have missing : ∀ binary, Cache.empty.get? binary 0 = none := fun _ => rfl
  unfold Cache.getOrAsk
  simp only [there, missing, asked']

/-- The interpreter of a virtual environment is covered, and so is the one that it is a link to. Node is
covered where it runs itself, and a plan starts it there. -/
theorem launchable_of_ask_linked :
    ((Path.ofText "/venv/bin/python3").isAbsolute = true ∧
      linkedHost.tree.isExecutable (.ofText "/venv/bin/python3") = true ∧
      linkedHost.tree.canonical (.ofText "/venv/bin/python3") = .ok (.ofText "/usr/bin/python3.12") ∧
      ∃ profile, Python.ask linkedHost (.ofText "/venv/bin/python3") = .ok profile ∧
        profile.executable = .ofText "/venv/bin/python3" ∧ profile.Launchable linkedHost.tree ∧
        ∃ e ∈ profile.readable, (Path.ofText "/usr/bin/python3.12").startsWith e = true) ∧
    (Path.ofText "/usr/bin/nodejs").isAbsolute = true ∧
    renamedHost.tree.isExecutable (.ofText "/usr/bin/nodejs") = true ∧
    (∀ d, Node.Prints renamedHost (.ofText "/usr/bin/nodejs") d →
      (Path.ofText d.executable).isAbsolute = true) ∧
    ∃ profile, Node.ask renamedHost (.ofText "/usr/bin/nodejs") = .ok profile ∧
      profile.executable = .ofText "/usr/bin/node" ∧ profile.Launchable renamedHost.tree ∧
      ∃ plan, (renamedRuntime.plan renamedHost .empty).1 = .ok plan ∧
        plan.command.head? = some "/usr/bin/node" ∧
        ∀ e ∈ profile.readable, .readExecute e ∈ plan.grants := by
  constructor
  · have absolute : (Path.ofText "/venv/bin/python3").isAbsolute = true := by decide
    have asked := Python.ask_of_prints (Python.prints_linked (.ofText "/venv/bin/python3"))
    have named : (Python.profile linkedHost (.ofText "/venv/bin/python3") linkedPython).executable =
        .ofText "/venv/bin/python3" := by
      rw [Python.executable_profile]
      rfl
    generalize Python.profile linkedHost (.ofText "/venv/bin/python3") linkedPython = profile at asked named
    have both := (launchable_of_ask absolute isExecutable_linked).1 profile asked
    rw [named] at both
    exact ⟨absolute, isExecutable_linked, canonical_linked, profile, asked, named, both.1,
      both.2 _ canonical_linked⟩
  · have absolute : (Path.ofText "/usr/bin/nodejs").isAbsolute = true := by decide
    obtain ⟨profile, asked, named⟩ := Node.ask_renamed
    have own : ∀ d, Node.Prints renamedHost (.ofText "/usr/bin/nodejs") d →
        (Path.ofText d.executable).isAbsolute = true := by
      intro d prints
      rw [Node.prints_renamed_iff.1 prints]
      decide
    obtain ⟨-, node, plans⟩ := launchable_of_ask absolute isExecutable_renamed
    obtain ⟨plan, planned, starts, grants⟩ := plans renamedRuntime .empty _ profile
      ⟨_, _, .inr rfl⟩ locate_renamedRuntime (getOrAsk_renamed asked)
    rw [named] at starts
    exact ⟨absolute, isExecutable_renamed, own, profile, asked, named, node profile asked own, plan,
      planned, starts.trans (congrArg some (Text.decodeLossy_utf8 _)), grants⟩

end SnippetRunner.Interpreter
