import SnippetRunner.Launch.Start
import SnippetRunner.Proofs.Path
import SnippetRunner.Proofs.Text.Encoding

/-!
# What a checked plan promises

A plan is accepted exactly if its texts are in order: its command, its environment, and the paths that it
has in the workspace. The check reads a path by its components, but what it asks can be said of the text: it
is not empty, it holds no null byte, it does not begin with a slash, and nowhere are there two dots alone
between its slashes. Such a path never leads out of a workspace, on no step of the way, since it adds nothing
but dots and names to the components of the root. A plan that is refused is refused before anything else is
done for it.
-/

namespace SnippetRunner

namespace Path

variable {p q : Path} {as bs part : List UInt8} {parts : List (List UInt8)} {s : String}

/-! ## Paths that texts spell -/

/-- What holds no separator goes before the first part. -/
theorem split_append_of_not_mem (clean : separator ∉ as) (first : split bs = part :: parts) :
    split (as ++ bs) = (as ++ part) :: parts := by
  induction as with
  | nil => exact first
  | cons a as ih =>
    rw [List.mem_cons, not_or] at clean
    exact split_cons_of_ne (Ne.symm clean.1) (ih clean.2)

/-- No character but the slash has the byte of a separator. -/
theorem eq_slash_of_separator_mem {c : Char} (h : separator ∈ String.utf8EncodeChar c) : c = '/' := by
  have code : separator.toNat = '/'.toNat := rfl
  rcases Text.eq_or_le_of_mem_utf8EncodeChar h with same | high
  · exact (Char.toNat_inj.1 (code.symm.trans same)).symm
  · exact absurd high (by decide)

/-- The parts of a path that a text spells are those that the parts of the text spell. -/
theorem split_flatMap (cs : List Char) :
    split (cs.flatMap String.utf8EncodeChar) =
      (cs.splitOn '/').map (·.flatMap String.utf8EncodeChar) := by
  induction cs with
  | nil => rfl
  | cons c cs ih =>
    rw [List.flatMap_cons, List.splitOn, List.splitOnP_cons_eq_if_modifyHead, ← List.splitOn]
    by_cases slash : c = '/'
    · subst slash
      show split (separator :: cs.flatMap String.utf8EncodeChar) = _
      rw [split_separator, ih]
      rfl
    · obtain ⟨part, parts, first⟩ := List.exists_cons_of_ne_nil (List.splitOnP_ne_nil (· == '/') cs)
      rw [← List.splitOn] at first
      rw [first, List.map_cons] at ih
      have clean : separator ∉ String.utf8EncodeChar c := fun h => slash (eq_slash_of_separator_mem h)
      -- the bytes of the character join the first part
      rw [split_append_of_not_mem clean ih, first]
      simp [slash]

theorem flatMap_utf8EncodeChar_inj {cs ds : List Char}
    (same : cs.flatMap String.utf8EncodeChar = ds.flatMap String.utf8EncodeChar) : cs = ds := by
  have bytes : Text.utf8 (String.ofList cs) = Text.utf8 (String.ofList ds) := by
    unfold Text.utf8
    rwa [String.toList_ofList, String.toList_ofList]
  have read := congrArg Text.decodeLossy bytes
  rw [Text.decodeLossy_utf8, Text.decodeLossy_utf8] at read
  exact String.ofList_injective read

/-- A text spells a path that leads upwards somewhere if two dots stand between its slashes. -/
theorem parent_mem_components_ofText_iff :
    .parent ∈ (ofText s).components ↔ ['.', '.'] ∈ s.toList.splitOn '/' := by
  rw [parent_mem_components_iff]
  show _ ∈ split (s.toList.flatMap String.utf8EncodeChar) ↔ _
  rw [split_flatMap, List.mem_map]
  have dots : ['.', '.'].flatMap String.utf8EncodeChar = [dot, dot] := by decide
  constructor
  · rintro ⟨cs, inside, same⟩
    rwa [flatMap_utf8EncodeChar_inj (same.trans dots.symm)] at inside
  · exact fun inside => ⟨_, inside, dots⟩

/-- A text spells an absolute path if it begins with a slash. -/
theorem isAbsolute_ofText_iff : (ofText s).isAbsolute = true ↔ s.toList.head? = some '/' := by
  have begins : (ofText s).isAbsolute = true ↔
      (s.toList.flatMap String.utf8EncodeChar).head? = some separator := beq_iff_eq
  rw [begins]
  cases s.toList with
  | nil => simp
  | cons c cs =>
    have some : String.utf8EncodeChar c ≠ [] := by
      rw [← List.length_pos_iff, String.length_utf8EncodeChar]
      exact Char.utf8Size_pos c
    rw [List.flatMap_cons, List.head?_append_of_ne_nil _ some, List.head?_cons, Option.some_inj]
    constructor
    · exact fun first => eq_slash_of_separator_mem (List.mem_of_head? first)
    · rintro rfl
      rfl

/-! ## Where components lead -/

/-- Where one component leads from a directory, which is given by the names on the way to it. -/
def Component.step (here : List (List UInt8)) : Component → List (List UInt8)
  | .root => []
  | .current => here
  | .parent => here.dropLast
  | .normal name => here ++ [name]

/-- Where some components lead, one after another. -/
def resolve (here : List (List UInt8)) (cs : List Component) : List (List UInt8) :=
  cs.foldl Component.step here

/-- The other path goes on from where this one leads, and on no step of the way it leaves what is below:
wherever one starts, the way leads along this path first. -/
def StaysBelow (q root : Path) : Prop :=
  ∃ more, q.components = root.components ++ more ∧
    ∀ here first, first <+: more →
      resolve here root.components <+: resolve here (root.components ++ first)

/-- Dots and names lead nowhere but down. -/
theorem prefix_resolve {cs : List Component} (down : ∀ c ∈ cs, c ≠ .root ∧ c ≠ .parent)
    (here : List (List UInt8)) : here <+: resolve here cs := by
  induction cs generalizing here with
  | nil => exact List.prefix_rfl
  | cons c cs ih =>
    -- the rest leads down from where this component leads
    have onward := ih (fun d inside => down d (List.mem_cons_of_mem _ inside)) (c.step here)
    have first : here <+: c.step here := by
      have here' := down c (List.mem_cons_self ..)
      cases c with
      | root => exact absurd rfl here'.1
      | parent => exact absurd rfl here'.2
      | current => exact List.prefix_rfl
      | normal name => exact List.prefix_append here [name]
    exact first.trans onward

/-- A relative path that never leads upwards stays below the path that it is seen from. -/
theorem staysBelow_append (relative : q.isAbsolute = false) (noParent : .parent ∉ q.components)
    (root : Path) : (root.append q).StaysBelow root := by
  -- whatever the path adds are components of its own, none of which leads up or to the root
  obtain ⟨more, whole, own⟩ := components_append (p := root) relative
  refine ⟨more, whole, fun here first begins => ?_⟩
  have down : ∀ c ∈ first, c ≠ .root ∧ c ≠ .parent := by
    intro c inside
    have theirs : c ∈ q.components := own c (begins.subset inside)
    exact ⟨fun top => root_not_mem_components relative (top ▸ theirs), fun up => noParent (up ▸ theirs)⟩
  show _ <+: (root.components ++ first).foldl Component.step here
  rw [List.foldl_append]
  exact prefix_resolve down _

end Path

namespace Launch

/-! ## Plans in order -/

/-- A path in a workspace. -/
structure Local (path : String) : Prop where
  notEmpty : path ≠ ""
  noNul : '\x00' ∉ path.toList
  relative : path.toList.head? ≠ some '/'
  /-- Nowhere are two dots alone between slashes. -/
  level : ['.', '.'] ∉ path.toList.splitOn '/'

/-- A plan of which all texts are in order. -/
structure Plan.Acceptable (p : Plan) : Prop where
  command : p.command ≠ []
  arguments : ∀ a ∈ p.command, a ≠ "" ∧ '\x00' ∉ a.toList
  binary : ∀ b ∈ p.command.head?, b.toList.head? = some '/'
  keys : ∀ e ∈ p.environment, e.1 ≠ "" ∧ '=' ∉ e.1.toList ∧ '\x00' ∉ e.1.toList
  values : ∀ e ∈ p.environment, '\x00' ∉ e.2.toList
  directory : Local p.directory
  files : ∀ f ∈ p.files, Local f.path

theorem hasNul_eq_true_iff {s : String} : hasNul s = true ↔ '\x00' ∈ s.toList := by
  unfold hasNul
  simp

/-- Two checks, one after the other, pass if each one does. -/
theorem and_then_eq_ok_iff {ε : Type} {x y : Except ε Unit} :
    (do x; y) = .ok () ↔ x = .ok () ∧ y = .ok () := by
  cases x with
  | error e => exact ⟨nofun, fun h => h.1⟩
  | ok u => exact ⟨fun h => ⟨rfl, h⟩, fun h => h.2⟩

theorem forM_eq_ok_iff {ε α : Type} {f : α → Except ε Unit} {as : List α} :
    as.forM f = .ok () ↔ ∀ a ∈ as, f a = .ok () := by
  induction as with
  | nil => exact ⟨nofun, fun _ => rfl⟩
  | cons a as ih =>
    show (do f a; as.forM f) = .ok () ↔ _
    rw [and_then_eq_ok_iff, List.forall_mem_cons, ih]

theorem checkArguments_eq_ok_iff {i : Nat} {args : List String} :
    checkArguments i args = .ok () ↔ ∀ a ∈ args, a ≠ "" ∧ '\x00' ∉ a.toList := by
  induction args generalizing i with
  | nil => exact ⟨nofun, fun _ => rfl⟩
  | cons a args ih =>
    unfold checkArguments
    rw [List.forall_mem_cons, ← hasNul_eq_true_iff]
    split
    next empty => exact ⟨nofun, fun h => absurd empty h.1.1⟩
    next some =>
      split
      next nul => exact ⟨nofun, fun h => absurd nul h.1.2⟩
      next noNul => rw [ih, and_iff_right ⟨some, noNul⟩]

theorem checkCommand_eq_ok_iff {args : List String} :
    checkCommand args = .ok () ↔ args ≠ [] ∧ ∀ a ∈ args, a ≠ "" ∧ '\x00' ∉ a.toList := by
  cases args with
  | nil => exact ⟨nofun, fun h => absurd rfl h.1⟩
  | cons a args =>
    show checkArguments 0 _ = _ ↔ _
    rw [checkArguments_eq_ok_iff, and_iff_right (List.cons_ne_nil a args)]

theorem checkBinary_eq_ok_iff {args : List String} :
    checkBinary args = .ok () ↔ ∀ b ∈ args.head?, b.toList.head? = some '/' := by
  cases args with
  | nil => exact ⟨nofun, fun _ => rfl⟩
  | cons b args =>
    by_cases absolute : b.toList.head? = some '/'
    · simp [checkBinary, absolute]
    · simp [checkBinary, absolute]

theorem checkEnv_eq_ok_iff {key value : String} :
    checkEnv key value = .ok () ↔
      (key ≠ "" ∧ '=' ∉ key.toList ∧ '\x00' ∉ key.toList) ∧ '\x00' ∉ value.toList := by
  have equals : key.toList.any (fun c => c == '=') = true ↔ '=' ∈ key.toList := by simp
  unfold checkEnv
  split
  next bad =>
    rw [equals] at bad
    exact ⟨nofun, fun h => absurd bad (not_or.2 ⟨h.1.1, h.1.2.1⟩)⟩
  next named =>
    rw [equals, not_or] at named
    split
    next nul =>
      rw [hasNul_eq_true_iff, hasNul_eq_true_iff] at nul
      exact ⟨nofun, fun h => absurd nul (not_or.2 ⟨h.1.2.2, h.2⟩)⟩
    next noNul =>
      rw [hasNul_eq_true_iff, hasNul_eq_true_iff, not_or] at noNul
      exact ⟨fun _ => ⟨⟨named.1, named.2, noNul.1⟩, noNul.2⟩, fun _ => rfl⟩

theorem checkPath_eq_ok_iff {path : String} : checkPath path = .ok () ↔ Local path := by
  have traversal : hasTraversal path = true ↔ ['.', '.'] ∈ path.toList.splitOn '/' := by
    unfold hasTraversal
    rw [← Path.parent_mem_components_ofText_iff, List.any_eq_true]
    simp
  unfold checkPath
  split
  next empty => exact ⟨nofun, fun h => absurd empty h.notEmpty⟩
  next notEmpty =>
    split
    next nul => exact ⟨nofun, fun h => absurd (hasNul_eq_true_iff.1 nul) h.noNul⟩
    next noNul =>
      split
      next absolute => exact ⟨nofun, fun h => absurd absolute h.relative⟩
      next relative =>
        split
        next up => exact ⟨nofun, fun h => absurd (traversal.1 up) h.level⟩
        next level =>
          exact ⟨fun _ => ⟨notEmpty, fun nul => noNul (hasNul_eq_true_iff.2 nul), relative,
            fun up => level (traversal.2 up)⟩, fun _ => rfl⟩

/-- The check accepts the plans that are in order. -/
theorem check_eq_ok_iff {p : Plan} : check p = .ok () ↔ p.Acceptable := by
  unfold check
  rw [and_then_eq_ok_iff, and_then_eq_ok_iff, and_then_eq_ok_iff, and_then_eq_ok_iff,
    checkCommand_eq_ok_iff, checkBinary_eq_ok_iff, forM_eq_ok_iff, checkPath_eq_ok_iff, forM_eq_ok_iff]
  simp only [checkEnv_eq_ok_iff, checkPath_eq_ok_iff]
  constructor
  · rintro ⟨⟨command, arguments⟩, binary, environment, directory, files⟩
    exact ⟨command, arguments, binary, fun e inside => (environment e inside).1,
      fun e inside => (environment e inside).2, directory, files⟩
  · intro h
    exact ⟨⟨h.command, h.arguments⟩, h.binary, fun e inside => ⟨h.keys e inside, h.values e inside⟩,
      h.directory, h.files⟩

/-- A path in a workspace stays there. -/
theorem Local.staysBelow {path : String} (h : Local path) (root : Path) :
    (root.child path).StaysBelow root := by
  apply Path.staysBelow_append
  · rw [Bool.eq_false_iff, Ne, Path.isAbsolute_ofText_iff]
    exact h.relative
  · rw [Path.parent_mem_components_ofText_iff]
    exact h.level

/-- What checking a plan is good for. It is accepted exactly if all of its texts are in order. If it is
accepted, then its process runs below the root of its workspace, whatever workspace that is, and its files
land below it. And if it is not accepted, then a start fails with what the check found, whatever the system
would do for a worker: the system is asked for nothing. -/
theorem acceptable_and_contained (p : Plan) :
    (check p = .ok () ↔ p.Acceptable) ∧
    (check p = .ok () → ∀ w : Files.Workspace, (p.order w).directory.StaysBelow w.root ∧
      ∀ f ∈ p.files, (w.root.child f.path).StaysBelow w.root) ∧
    (check p ≠ .ok () → ∃ r, check p = .error r ∧
      ∀ (m : Type → Type) [Monad m] (Denial Lock Worker : Type) (s : Starter m Denial Lock Worker),
        (start s p).run = pure (.error (.refused r))) := by
  refine ⟨check_eq_ok_iff, fun accepted w => ?_, fun refused => ?_⟩
  · have h := check_eq_ok_iff.1 accepted
    exact ⟨h.directory.staysBelow w.root, fun f inside => (h.files f inside).staysBelow w.root⟩
  · cases found : check p with
    | ok u => exact absurd found refused
    | error r =>
      -- the start ends at the check, before the system comes in
      refine ⟨r, rfl, fun m _ Denial Lock Worker s => ?_⟩
      unfold start
      rw [found]
      rfl

/-- A plan whose file has a path full of dots, though it never leads upwards. -/
def dottedPlan (directory : String) : Plan :=
  { Plan.new ["/usr/bin/python3", "../driver.py"] with
    directory, files := [⟨"./..a//b../...", [], false⟩] }

/-- Dots in names, single dots and doubled slashes do no harm, but two dots between slashes do. -/
theorem acceptable_and_contained_dotted :
    (check (dottedPlan "work//./..a.") = .ok () ∧
      ((dottedPlan "work//./..a.").order ⟨.ofText "/tmp/w/"⟩).directory.StaysBelow
        (Files.Workspace.mk (.ofText "/tmp/w/")).root) ∧
    check (dottedPlan "work/..//a") ≠ .ok () ∧ ∃ r, check (dottedPlan "work/..//a") = .error r ∧
      ∀ s : Starter Id Unit Unit Unit,
        (start s (dottedPlan "work/..//a")).run = pure (.error (.refused r)) := by
  have accepted : check (dottedPlan "work//./..a.") = .ok () := by rfl
  have refused : check (dottedPlan "work/..//a") ≠ .ok () := by
    have found : check (dottedPlan "work/..//a") = .error .pathTraversal := by rfl
    rw [found]
    nofun
  have contained := (acceptable_and_contained (dottedPlan "work//./..a.")).2.1 accepted
  obtain ⟨r, found, fails⟩ := (acceptable_and_contained (dottedPlan "work/..//a")).2.2 refused
  exact ⟨⟨accepted, (contained _).1⟩, refused, r, found, fun s => fails Id Unit Unit Unit s⟩

end Launch

end SnippetRunner
