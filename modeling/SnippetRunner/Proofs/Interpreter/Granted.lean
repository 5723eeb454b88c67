import SnippetRunner.Interpreter.Runtime
import SnippetRunner.Proofs.Files.Walking

/-!
# What a launch grants for its interpreter

The paths that a worker may read beside its workspace come from the installation of its interpreter and
from what the interpreter tells about itself. One of them is the root directory, or a relative path,
exactly where one of these sources is: the installation of a program that stands in the root directory
or that is named by a relative path, or a directory that the interpreter names so. Nothing checks for it
on the way, so a launch plan grants it, from whatever probe the cache has the answer.
-/

namespace SnippetRunner.Interpreter

open SnippetRunner (Path)

/-! ## Installations -/

section Installation

variable {binary dir : Path}

/-- The directory of an installation is one or two steps above the program, and the root only where
it is one. -/
theorem installation?_cases (h : installation? binary = some dir) :
    binary.components ≠ [] ∧ binary.components ≠ [.root] ∧
      (dir.components = binary.components.dropLast ∨
        dir.components = binary.components.dropLast.dropLast ∧
          dir.components ≠ [] ∧ dir.components ≠ [.root]) := by
  unfold installation? at h
  split at h
  next => cases h
  next bin parent =>
    have below : ¬(binary.components = [] ∨ binary.components = [.root]) := by
      rw [← Path.parent?_eq_none_iff, parent]
      simp
    obtain ⟨nonempty, notRoot⟩ := not_or.1 below
    refine ⟨nonempty, notRoot, ?_⟩
    have one := Path.components_of_parent? parent
    -- a directory of binaries gives way to the one above it, unless that is as high as it goes
    split at h
    next =>
      cases h
      exact .inl one
    next above grandparent =>
      by_cases higher : (bin.endsWith (.ofText "bin") && above.parent?.isSome) = true
      · rw [if_pos higher] at h
        cases h
        have more : ¬(dir.components = [] ∨ dir.components = [.root]) := by
          rw [← Path.parent?_eq_none_iff]
          intro nothing
          simp [nothing] at higher
        exact .inr ⟨by rw [Path.components_of_parent? grandparent, one], not_or.1 more⟩
      · rw [if_neg higher] at h
        cases h
        exact .inl one

/-- The directory of an installation is the root exactly where the program stands in the root
directory. -/
theorem components_installation?_eq_root_iff (h : installation? binary = some dir) :
    dir.components = [.root] ↔ ∃ name, binary.components = [.root, name] := by
  obtain ⟨nonempty, -, way⟩ := installation?_cases h
  -- two steps up never end at the root, so it is one step that does
  constructor
  · intro root
    rcases way with one | ⟨-, -, notRoot⟩
    · have last := List.dropLast_append_getLast nonempty
      rw [← one, root] at last
      exact ⟨_, last.symm⟩
    · exact absurd root notRoot
  · rintro ⟨name, is⟩
    rcases way with one | ⟨two, notEmpty, -⟩
    · rw [one, is]
      rfl
    · rw [two, is] at notEmpty
      exact absurd rfl notEmpty

/-- It is absolute exactly where the path of the program is. -/
theorem isAbsolute_installation? (h : installation? binary = some dir) :
    dir.isAbsolute = binary.isAbsolute := by
  obtain ⟨nonempty, notRoot, way⟩ := installation?_cases h
  have first : ∀ {cs : List Path.Component}, cs.dropLast ≠ [] → cs.dropLast.head? = cs.head? := by
    intro cs more
    match cs, more with
    | [], more => exact absurd rfl more
    | [_], more => exact absurd rfl more
    | _ :: _ :: _, _ => rfl
  rw [Bool.eq_iff_iff, Path.isAbsolute_iff, Path.isAbsolute_iff]
  rcases way with one | ⟨two, notEmpty, -⟩
  · rw [one]
    by_cases more : binary.components.dropLast = []
    · -- a program with a single component: that one is not the root, so both paths are relative
      have last := List.dropLast_append_getLast nonempty
      rw [more, List.nil_append] at last
      have single : binary.components.head? ≠ some .root := by
        intro begins
        rw [← last, List.head?_cons] at begins
        rw [Option.some.inj begins] at last
        exact notRoot last.symm
      simp [more, single]
    · rw [first more]
  · rw [two] at notEmpty
    have more : binary.components.dropLast ≠ [] := fun empty => notEmpty (by rw [empty]; rfl)
    rw [two, first notEmpty, first more]

/-- It is broad exactly where the program stands in the root directory or its path is relative. -/
theorem isBroad_installation?_iff (h : installation? binary = some dir) :
    dir.IsBroad ↔ (∃ name, binary.components = [.root, name]) ∨ binary.isAbsolute = false := by
  unfold Path.IsBroad
  rw [components_installation?_eq_root_iff h, isAbsolute_installation? h]

end Installation

/-! ## Profiles -/

section Profiles

variable {h : Host} {binary p : Path}

theorem readable_withAllReadable (profile : Profile) (paths : List Path) :
    (profile.withAllReadable paths).readable = paths.foldl Path.addCover profile.readable := by
  unfold Profile.withAllReadable
  induction paths generalizing profile with
  | nil => rfl
  | cons path paths ih =>
    rw [List.foldl_cons, ih, List.foldl_cons]
    rfl

/-- Of paths that are made readable in a new profile, something is broad exactly if one of them is. -/
theorem exists_isBroad_withAllReadable {profile : Profile} (new : profile.readable = [])
    (paths : List Path) :
    (∃ e ∈ (profile.withAllReadable paths).readable, e.IsBroad) ↔ ∃ p ∈ paths, p.IsBroad := by
  rw [readable_withAllReadable, Path.exists_isBroad_foldl_addCover, new]
  simp

/-- The path that leads directly to something begins at the root. -/
theorem isAbsolute_of_canonical {t : Files.Tree} {real : Path} (h : t.canonical p = .ok real) :
    real.isAbsolute = true := by
  obtain ⟨place, -, -, -, rfl⟩ := Files.Tree.canonical_eq_ok_iff.1 h
  exact Files.Tree.isAbsolute_pathOf place

namespace Python

/-- The program that is launched: the one that the interpreter names, if it is absolute and can be
executed. -/
def program (h : Host) (binary : Path) (d : Description) : Path :=
  if (Path.ofText d.executable).isAbsolute then
    (h.executable? (.ofText d.executable)).getD binary
  else binary

/-- Where the readable paths come from. -/
def sources (h : Host) (binary : Path) (d : Description) : List Path :=
  (installation? (program h binary d)).toList ++
    (match h.tree.canonical (program h binary d) with
      | .ok real => (installation? real).toList
      | .error _ => []) ++
    (d.prefixes ++ d.library).map Path.ofText

/-- A source that is broad, and why it is. -/
inductive BroadSource (h : Host) (binary : Path) (d : Description) (p : Path) : Prop where
  /-- The program stands in the root directory, or its path is relative. -/
  | program (place : installation? (Python.program h binary d) = some p)
      (why : (∃ name, (Python.program h binary d).components = [.root, name]) ∨
        (Python.program h binary d).isAbsolute = false)
  /-- What the program is a link to stands in the root directory. -/
  | linked (real : Path) (target : h.tree.canonical (Python.program h binary d) = .ok real)
      (place : installation? real = some p) (why : ∃ name, real.components = [.root, name])
  /-- The interpreter names the root or a relative directory. -/
  | named (text : String) (told : text ∈ d.prefixes ++ d.library) (is : p = .ofText text)
      (why : (Path.ofText text).IsBroad)

variable {d : Description}

theorem isBroad_iff_of_mem_sources (inside : p ∈ sources h binary d) :
    p.IsBroad ↔ BroadSource h binary d p := by
  constructor
  · intro broad
    unfold sources at inside
    rcases List.mem_append.1 inside with inside | told
    · rcases List.mem_append.1 inside with place | linked
      · have place := Option.mem_toList.1 place
        exact .program place ((isBroad_installation?_iff place).1 broad)
      · split at linked
        next real target =>
          have place := Option.mem_toList.1 linked
          refine .linked real target place (((isBroad_installation?_iff place).1 broad).resolve_right ?_)
          simp [isAbsolute_of_canonical target]
        next => cases linked
    · obtain ⟨text, member, rfl⟩ := List.mem_map.1 told
      exact .named text member rfl broad
  · rintro (⟨place, why⟩ | ⟨real, -, place, why⟩ | ⟨text, -, rfl, why⟩)
    · exact (isBroad_installation?_iff place).2 why
    · exact (isBroad_installation?_iff place).2 (.inl why)
    · exact why

/-- Something that a profile makes readable is broad exactly if a source is that exists. -/
theorem exists_isBroad_profile_iff (h : Host) (binary : Path) (d : Description) :
    (∃ e ∈ (profile h binary d).readable, e.IsBroad) ↔
      ∃ p ∈ Path.sortUnique (sources h binary d), h.tree.has p = true ∧ BroadSource h binary d p := by
  have made : profile h binary d = Profile.withAllReadable
      { Profile.new binary with executable := program h binary d, version := some d.version }
      ((Path.sortUnique (sources h binary d)).filter h.tree.has) := rfl
  rw [made, exists_isBroad_withAllReadable rfl]
  constructor
  · rintro ⟨p, inside, broad⟩
    obtain ⟨inside, stands⟩ := List.mem_filter.1 inside
    have source := Path.mem_of_mem_sortUnique inside
    exact ⟨p, inside, stands, (isBroad_iff_of_mem_sources source).1 broad⟩
  · rintro ⟨p, inside, stands, broad⟩
    have source := Path.mem_of_mem_sortUnique inside
    exact ⟨p, List.mem_filter.2 ⟨inside, stands⟩, (isBroad_iff_of_mem_sources source).2 broad⟩

end Python

namespace Node

/-- The program that is launched: the one that the interpreter names, if it can be executed. -/
def program (h : Host) (binary : Path) (d : Description) : Path :=
  (h.executable? (.ofText d.executable)).getD binary

/-- What a profile makes readable is broad exactly if the program stands in the root directory or its
path is relative. -/
theorem exists_isBroad_profile_iff (h : Host) (binary : Path) (d : Description) :
    (∃ e ∈ (profile h binary d).readable, e.IsBroad) ↔
      ∃ p, installation? (program h binary d) = some p ∧ h.tree.has p = true ∧
        ((∃ name, (program h binary d).components = [.root, name]) ∨
          (program h binary d).isAbsolute = false) := by
  have made : profile h binary d = Profile.withAllReadable
      { Profile.new binary with executable := program h binary d, version := some d.version }
      ((installation? (program h binary d)).toList.filter h.tree.has) := rfl
  rw [made, exists_isBroad_withAllReadable rfl]
  constructor
  · rintro ⟨p, inside, broad⟩
    obtain ⟨inside, stands⟩ := List.mem_filter.1 inside
    have place := Option.mem_toList.1 inside
    exact ⟨p, place, stands, (isBroad_installation?_iff place).1 broad⟩
  · rintro ⟨p, place, stands, why⟩
    exact ⟨p, List.mem_filter.2 ⟨Option.mem_toList.2 place, stands⟩,
      (isBroad_installation?_iff place).2 why⟩

end Node

end Profiles

/-! ## Plans -/

/-- A profile that an interpreter of a built-in language has told, on some host. -/
def Told (profile : Profile) : Prop :=
  ∃ h binary, Python.ask h binary = .ok profile ∨ Node.ask h binary = .ok profile

/-- A probe of a built-in language. -/
def Probe.BuiltIn (p : Probe) : Prop :=
  (∃ binary version, p = Python.probe binary version) ∨ ∃ binary, p = Node.probe binary

/-- A cache that only probes of the built-in languages have filled. -/
inductive Cache.Reached : Cache → Prop where
  | empty : Reached .empty
  | asked {c : Cache} {p : Probe} (h : Host) (binary : Path) (before : Reached c)
      (builtIn : p.BuiltIn) : Reached (c.getOrAsk h p binary).2

variable {c : Cache} {p : Probe} {h : Host} {binary : Path} {profile : Profile}

theorem told_of_ask (builtIn : p.BuiltIn) (asked : p.ask h binary = .ok profile) : Told profile := by
  rcases builtIn with ⟨configured, version, rfl⟩ | ⟨configured, rfl⟩
  · exact ⟨h, binary, .inl asked⟩
  · exact ⟨h, binary, .inr asked⟩

/-- What Python prints is made into a profile of its own. -/
theorem Python.exists_profile_of_ask (asked : ask h binary = .ok profile) :
    ∃ d, profile = Python.profile h binary d := by
  unfold ask at asked
  split at asked
  · simp only [reduceCtorEq] at asked
  · split at asked
    · simp only [reduceCtorEq] at asked
    · split at asked
      next d _ => exact ⟨d, (Except.ok.inj asked).symm⟩
      next => simp only [reduceCtorEq] at asked

/-- So is what Node prints. -/
theorem Node.exists_profile_of_ask (asked : ask h binary = .ok profile) :
    ∃ d, profile = Node.profile h binary d := by
  unfold ask at asked
  split at asked
  · simp only [reduceCtorEq] at asked
  · split at asked
    · simp only [reduceCtorEq] at asked
    · split at asked
      next d _ => exact ⟨d, (Except.ok.inj asked).symm⟩
      next => simp only [reduceCtorEq] at asked

/-- One answer more, of a probe of a built-in language: everything in the cache is told by such a
probe, and so is the answer. -/
theorem Cache.told_getOrAsk (builtIn : p.BuiltIn) (before : ∀ e ∈ c.entries, Told e.profile) :
    (∀ e ∈ (c.getOrAsk h p binary).2.entries, Told e.profile) ∧
      ∀ profile, (c.getOrAsk h p binary).1 = .ok profile → Told profile := by
  unfold getOrAsk
  split
  next => exact ⟨before, fun _ h => by cases h⟩
  next modified _ =>
    split
    next kept found =>
      -- an answer from the cache is that of an entry
      refine ⟨before, fun profile is => ?_⟩
      cases is
      obtain ⟨e, entry, rfl⟩ := Option.map_eq_some_iff.1 found
      exact before e (List.mem_of_find?_eq_some entry)
    next =>
      split
      next => exact ⟨before, fun _ h => by cases h⟩
      next answer asked =>
        have told := told_of_ask builtIn asked
        refine ⟨fun e inside => ?_, fun profile is => ?_⟩
        · rcases List.mem_cons.1 inside with rfl | inside
          · exact told
          · exact before e inside
        · cases is
          exact told

theorem Cache.Reached.told (reached : c.Reached) : ∀ e ∈ c.entries, Told e.profile := by
  induction reached with
  | empty => exact fun e inside => absurd inside List.not_mem_nil
  | asked h binary _ builtIn ih => exact (Cache.told_getOrAsk builtIn ih).1

/-- A runtime of a built-in language, with any settings and any driver file. -/
def Runtime.BuiltIn (r : Runtime) : Prop :=
  ∃ settings driver, r = pythonRuntime settings driver ∨ r = nodeRuntime settings driver

theorem Runtime.BuiltIn.probe {r : Runtime} (builtIn : r.BuiltIn) : r.probe.BuiltIn := by
  obtain ⟨settings, driver, rfl | rfl⟩ := builtIn
  · exact .inl ⟨settings.binary, none, rfl⟩
  · exact .inr ⟨settings.binary, rfl⟩

/-- A plan grants what its profile makes readable, and besides it what the settings ask for. -/
theorem Runtime.grants_planOf (r : Runtime) (profile : Profile) :
    (r.planOf profile).grants =
      profile.readable.map .readExecute ++ r.settings.readable.map .read := by
  have environment : ∀ (entries : Launch.Environment) (plan : Launch.Plan),
      (entries.foldl (fun plan e => plan.withEnv e.1 e.2) plan).grants = plan.grants := by
    intro entries
    induction entries with
    | nil => exact fun _ => rfl
    | cons e entries ih =>
      intro plan
      rw [List.foldl_cons, ih]
      rfl
  unfold planOf
  rw [environment]

/-- A launch plan grants for execution what a profile makes readable that was told. -/
theorem Runtime.exists_told_of_plan {r : Runtime} {plan : Launch.Plan} (builtIn : r.BuiltIn)
    (reached : c.Reached) (planned : (r.plan h c).1 = .ok plan) :
    ∃ profile, Told profile ∧ plan.grants =
      profile.readable.map .readExecute ++ r.settings.readable.map .read := by
  unfold Runtime.plan at planned
  simp only at planned
  split at planned
  next => cases planned
  next binary _ =>
    have answer : ∀ profile, (c.getOrAsk h r.probe binary).1 = .ok profile → Told profile :=
      (Cache.told_getOrAsk builtIn.probe reached.told).2
    split at planned
    next => cases planned
    next profile _ got =>
      cases planned
      exact ⟨profile, answer profile (by rw [got]), r.grants_planOf profile⟩

/-! ## Both languages -/

/-- When a launch of a built-in language grants the root directory or a relative path. The directory of
an installation is one of them exactly where the program stands in the root directory or its path is
relative. What a profile makes readable has one among it exactly where such a directory exists, or one
that Python names. And a plan grants for execution exactly what a profile makes readable, whichever
probes have filled the cache before it. -/
theorem granted_iff (h : Host) (binary : Path) :
    (∀ dir, installation? binary = some dir →
      (dir.IsBroad ↔ (∃ name, binary.components = [.root, name]) ∨ binary.isAbsolute = false)) ∧
    (∀ d, (∃ e ∈ (Python.profile h binary d).readable, e.IsBroad) ↔
      ∃ p ∈ Path.sortUnique (Python.sources h binary d), h.tree.has p = true ∧
        Python.BroadSource h binary d p) ∧
    (∀ d, (∃ e ∈ (Node.profile h binary d).readable, e.IsBroad) ↔
      ∃ p, installation? (Node.program h binary d) = some p ∧ h.tree.has p = true ∧
        ((∃ name, (Node.program h binary d).components = [.root, name]) ∨
          (Node.program h binary d).isAbsolute = false)) ∧
    ∀ (r : Runtime) (c : Cache) (plan : Launch.Plan), r.BuiltIn → c.Reached →
      (r.plan h c).1 = .ok plan →
      ∃ host program, ∃ profile : Profile,
        ((∃ d, profile = Python.profile host program d) ∨ ∃ d, profile = Node.profile host program d) ∧
          plan.grants = profile.readable.map .readExecute ++ r.settings.readable.map .read := by
  refine ⟨fun dir => isBroad_installation?_iff, Python.exists_isBroad_profile_iff h binary,
    Node.exists_isBroad_profile_iff h binary, fun r c plan builtIn reached planned => ?_⟩
  obtain ⟨profile, ⟨host, program, told⟩, grants⟩ := Runtime.exists_told_of_plan builtIn reached planned
  refine ⟨host, program, profile, ?_, grants⟩
  exact told.imp Python.exists_profile_of_ask Node.exists_profile_of_ask

/-- A program in the root directory. -/
example : installation? (.ofText "/python3") = some (.ofText "/") := by decide

end SnippetRunner.Interpreter
