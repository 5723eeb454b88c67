import Mathlib.Data.List.Induction
import Mathlib.Data.List.Pairwise
import Mathlib.Data.List.Perm.Basic
import SnippetRunner.Proofs.Interpreter.Granted

/-!
# What a profile makes readable

A profile is told of readable paths one by one or several at a time. It keeps the broadest of them: each
path that it has been told of is covered by one that it keeps, and none that it keeps covers another
one. Which these are does not depend on the order in which it has been told, but for their spelling and
for their own order: a path is kept as it was first spelled, and stands where it came first.

All of this is kept by one path more, whether it is left out, takes the places of others or joins them.
-/

namespace SnippetRunner

namespace Path

variable {p q r : Path} {entries added : List Path}

/-! ## Covering -/

theorem startsWith_iff : p.startsWith q = true ↔ q.components <+: p.components :=
  List.isPrefixOf_iff_prefix

theorem same_iff : p.same q = true ↔ p.components = q.components := beq_iff_eq

theorem startsWith_self (p : Path) : p.startsWith p = true := startsWith_iff.2 (List.prefix_refl _)

theorem startsWith_trans (first : p.startsWith q = true) (second : q.startsWith r = true) :
    p.startsWith r = true :=
  startsWith_iff.2 ((startsWith_iff.1 second).trans (startsWith_iff.1 first))

theorem startsWith_of_same (h : p.same q = true) : p.startsWith q = true := by
  have alike : q.components ++ [] = p.components := by rw [same_iff.1 h, List.append_nil]
  exact startsWith_iff.2 ⟨[], alike⟩

/-- Paths that cover each other are the same. -/
theorem same_of_startsWith (first : p.startsWith q = true) (second : q.startsWith p = true) :
    p.same q = true :=
  same_iff.2 ((startsWith_iff.1 second).eq_of_length_le (startsWith_iff.1 first).length_le)

/-! ## Reduced lists -/

/-- Where a path stands first among those that have been added, in whatever spelling. -/
def place (added : List Path) (p : Path) : Nat := added.findIdx fun q => q.same p

/-- What is kept of the paths that have been added. -/
structure Reduces (entries added : List Path) : Prop where
  /-- No entry covers another one. -/
  apart : entries.Pairwise fun e f => e.startsWith f = false ∧ f.startsWith e = false
  /-- Every path that has been added is covered. -/
  covers : ∀ p ∈ added, ∃ e ∈ entries, p.startsWith e = true
  /-- An entry is spelled as it was when it came first. -/
  spelled : ∀ e ∈ entries, added[place added e]? = some e
  /-- The entries stand in the order in which they came first. -/
  ordered : entries.Pairwise fun e f => place added e < place added f

theorem place_lt (found : added[place added p]? = some p) : place added p < added.length :=
  (List.getElem?_eq_some_iff.1 found).1

/-- A path that is there keeps its place. -/
theorem place_concat (found : added[place added p]? = some p) :
    place (added ++ [q]) p = place added p := by
  unfold place
  rw [List.findIdx_append]
  exact if_pos (place_lt found)

/-- A path that is not there comes last. -/
theorem place_concat_self (absent : ∀ q ∈ added, q.same p = false) :
    place (added ++ [p]) p = added.length := by
  have nowhere : added.findIdx (fun q => q.same p) = added.length :=
    List.findIdx_eq_length.2 absent
  have last : [p].findIdx (fun q => q.same p) = 0 := by
    rw [List.findIdx_cons, same_iff.2 rfl]
    rfl
  unfold place
  rw [List.findIdx_append, nowhere, if_neg (Nat.lt_irrefl _), last, Nat.zero_add]

namespace Reduces

/-- Nothing has been added. -/
theorem nil : Reduces [] [] :=
  ⟨.nil, List.forall_mem_nil _, List.forall_mem_nil _, .nil⟩

/-- Entries that stay are spelled and ordered as before when a path is added. -/
theorem spelled_concat (h : Reduces entries added) (p : Path) :
    ∀ e ∈ entries, (added ++ [p])[place (added ++ [p]) e]? = some e := by
  intro e inside
  have found := h.spelled e inside
  rw [place_concat found, List.getElem?_append_left (place_lt found), found]

theorem ordered_concat (h : Reduces entries added) (p : Path) :
    entries.Pairwise fun e f => place (added ++ [p]) e < place (added ++ [p]) f := by
  refine h.ordered.imp_of_mem ?_
  intro e f first second before
  rwa [place_concat (h.spelled e first), place_concat (h.spelled f second)]

/-- A path that is covered is left out. -/
theorem skip (h : Reduces entries added) (covered : ∃ e ∈ entries, p.startsWith e = true) :
    Reduces entries (added ++ [p]) where
  apart := h.apart
  covers := by
    intro q inside
    rcases List.mem_append.1 inside with before | new
    · exact h.covers q before
    · rwa [List.mem_singleton.1 new]
  spelled := h.spelled_concat p
  ordered := h.ordered_concat p

/-- A path that is not covered has not been added before, in whatever spelling. -/
theorem same_eq_false (h : Reduces entries added) (bare : ∀ e ∈ entries, p.startsWith e = false) :
    ∀ q ∈ added, q.same p = false := by
  intro q inside
  rw [Bool.eq_false_iff]
  intro same
  obtain ⟨e, kept, covers⟩ := h.covers q inside
  have covered : p.startsWith e = true :=
    startsWith_trans (startsWith_of_same (same_iff.2 (same_iff.1 same).symm)) covers
  rw [bare e kept] at covered
  cases covered

/-- A path that is not covered takes the places of all that it covers. -/
theorem join (h : Reduces entries added) (bare : ∀ e ∈ entries, p.startsWith e = false) :
    Reduces ((entries.filter fun e => !e.startsWith p) ++ [p]) (added ++ [p]) := by
  have last : place (added ++ [p]) p = added.length := place_concat_self (h.same_eq_false bare)
  have stays : ∀ e ∈ entries.filter (fun e => !e.startsWith p), e ∈ entries ∧ e.startsWith p = false := by
    intro e inside
    simpa using inside
  constructor
  · rw [List.pairwise_append]
    refine ⟨h.apart.filter _, List.pairwise_singleton _ _, ?_⟩
    intro e inside f new
    rw [List.mem_singleton.1 new]
    exact ⟨(stays e inside).2, bare e (stays e inside).1⟩
  · intro q inside
    have newest : p ∈ (entries.filter fun e => !e.startsWith p) ++ [p] :=
      List.mem_append_right _ (List.mem_singleton_self p)
    rcases List.mem_append.1 inside with before | new
    · obtain ⟨e, kept, covers⟩ := h.covers q before
      by_cases gives : e.startsWith p = true
      · exact ⟨p, newest, startsWith_trans covers gives⟩
      · exact ⟨e, List.mem_append_left _ (List.mem_filter.2 ⟨kept, by simpa using gives⟩), covers⟩
    · exact ⟨p, newest, List.mem_singleton.1 new ▸ startsWith_self p⟩
  · intro e inside
    rcases List.mem_append.1 inside with before | new
    · exact h.spelled_concat p e (stays e before).1
    · rw [List.mem_singleton.1 new, last, List.getElem?_concat_length]
  · rw [List.pairwise_append]
    refine ⟨(h.ordered_concat p).filter _, List.pairwise_singleton _ _, ?_⟩
    intro e inside f new
    have found := h.spelled e (stays e inside).1
    rw [List.mem_singleton.1 new, last, place_concat found]
    exact place_lt found

/-- One path more. -/
theorem addCover (h : Reduces entries added) (p : Path) :
    Reduces (Path.addCover entries p) (added ++ [p]) := by
  unfold Path.addCover
  split
  next covered => exact h.skip (List.any_eq_true.1 covered)
  next bare =>
    refine h.join fun e inside => ?_
    rw [Bool.eq_false_iff]
    exact fun covers => bare (List.any_eq_true.2 ⟨e, inside, covers⟩)

/-- Any number of paths. -/
theorem foldl_addCover (added : List Path) : Reduces (added.foldl Path.addCover []) added := by
  induction added using List.reverseRecOn with
  | nil => exact nil
  | append_singleton added p ih =>
    rw [List.foldl_append]
    exact ih.addCover p

/-- A path is covered exactly if one of those that have been added covers it. -/
theorem covered_iff (h : Reduces entries added) (p : Path) :
    (∃ e ∈ entries, p.startsWith e = true) ↔ ∃ q ∈ added, p.startsWith q = true := by
  constructor
  · rintro ⟨e, inside, covers⟩
    exact ⟨e, List.mem_of_getElem? (h.spelled e inside), covers⟩
  · rintro ⟨q, inside, below⟩
    obtain ⟨e, kept, covers⟩ := h.covers q inside
    exact ⟨e, kept, startsWith_trans below covers⟩

/-- No two entries are the same path. -/
theorem nodup (h : Reduces entries added) : (entries.map components).Nodup := by
  refine List.pairwise_map.2 (h.apart.imp ?_)
  intro e f apart same
  have covers : e.startsWith f = true := startsWith_of_same (same_iff.2 same)
  rw [apart.1] at covers
  cases covers

/-- An entry that is covered by an entry is that one. -/
theorem same_of_covered (h : Reduces entries added) {e f : Path} (first : e ∈ entries)
    (second : f ∈ entries) (covers : e.startsWith f = true) : e = f := by
  by_contra other
  have symmetric : Std.Symm fun e f : Path => e.startsWith f = false ∧ f.startsWith e = false :=
    ⟨fun _ _ both => both.symm⟩
  have apart := h.apart.forall first second other
  rw [apart.1] at covers
  cases covers

variable {entries' added' : List Path}

/-- What is kept of one list is kept of every other one with the same paths. -/
theorem components_subset (h : Reduces entries added) (h' : Reduces entries' added')
    (alike : ∀ p, p ∈ added' ↔ p ∈ added) : entries.map components ⊆ entries'.map components := by
  intro cs inside
  obtain ⟨e, kept, rfl⟩ := List.mem_map.1 inside
  have told : e ∈ added := List.mem_of_getElem? (h.spelled e kept)
  obtain ⟨f, kept', up⟩ := h'.covers e ((alike e).2 told)
  have told' : f ∈ added' := List.mem_of_getElem? (h'.spelled f kept')
  -- what covers the entry of the other list is the entry itself, so that the two are the same
  obtain ⟨g, kept'', down⟩ := h.covers f ((alike f).1 told')
  obtain rfl : e = g := h.same_of_covered kept kept'' (startsWith_trans up down)
  exact List.mem_map.2 ⟨f, kept', same_iff.1 (same_of_startsWith down up)⟩

theorem perm (h : Reduces entries added) (h' : Reduces entries' added')
    (alike : ∀ p, p ∈ added' ↔ p ∈ added) :
    (entries'.map components).Perm (entries.map components) := by
  refine (List.perm_ext_iff_of_nodup h'.nodup h.nodup).2 fun cs => ⟨?_, ?_⟩
  · exact fun inside => h'.components_subset h (fun p => (alike p).symm) inside
  · exact fun inside => h.components_subset h' alike inside

end Reduces

end Path

/-! ## Profiles -/

namespace Interpreter

/-- A way of telling a profile of readable paths. -/
inductive Addition where
  | one (path : Path)
  | several (paths : List Path)

/-- The paths that the profile is told of, in their order. -/
def Addition.paths : Addition → List Path
  | .one path => [path]
  | .several paths => paths

namespace Profile

/-- The profile that is told of readable paths. -/
def told (profile : Profile) : Addition → Profile
  | .one path => profile.withReadable path
  | .several paths => profile.withAllReadable paths

theorem readable_told (profile : Profile) (a : Addition) :
    (profile.told a).readable = a.paths.foldl Path.addCover profile.readable := by
  cases a with
  | one path => rfl
  | several paths => exact readable_withAllReadable profile paths

theorem readable_foldl_told (profile : Profile) (additions : List Addition) :
    (additions.foldl told profile).readable =
      (additions.flatMap Addition.paths).foldl Path.addCover profile.readable := by
  induction additions generalizing profile with
  | nil => rfl
  | cons a additions ih =>
    rw [List.foldl_cons, ih, readable_told, List.flatMap_cons, List.foldl_append]

/-- What a new profile makes readable that is told of paths in any number of additions. No entry covers
another one, every path is covered, and an entry is the first spelling of its path and stands in the
place of it; so exactly what the paths cover is covered. Additions of the same paths, in whatever order
they come and however often, make the same paths readable. -/
theorem reduces_readable (binary : Path) (additions : List Addition) :
    Path.Reduces (additions.foldl told (.new binary)).readable (additions.flatMap Addition.paths) ∧
      (∀ p : Path, (∃ e ∈ (additions.foldl told (.new binary)).readable, p.startsWith e = true) ↔
        ∃ q ∈ additions.flatMap Addition.paths, p.startsWith q = true) ∧
      ∀ others : List Addition,
        (∀ p, p ∈ others.flatMap Addition.paths ↔ p ∈ additions.flatMap Addition.paths) →
          ((others.foldl told (.new binary)).readable.map Path.components).Perm
            ((additions.foldl told (.new binary)).readable.map Path.components) := by
  have reduces : ∀ additions : List Addition, Path.Reduces
      (additions.foldl told (.new binary)).readable (additions.flatMap Addition.paths) := by
    intro additions
    rw [readable_foldl_told]
    exact Path.Reduces.foldl_addCover _
  refine ⟨reduces additions, (reduces additions).covered_iff, ?_⟩
  intro others alike
  exact (reduces additions).perm (reduces others) alike

/-- A path takes the places of those that it covers, and later spellings of it change nothing. -/
example : ((([.one (.ofText "/usr/lib"), .several [.ofText "/opt", .ofText "/usr/./"],
    .one (.ofText "/usr//lib"), .one (.ofText "/usr")] : List Addition).foldl told
      (.new (.ofText "/usr/bin/python3"))).readable) = [.ofText "/opt", .ofText "/usr/./"] := by
  decide

end Profile

end Interpreter

end SnippetRunner
