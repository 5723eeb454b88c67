import SnippetRunner.Language.Index
import SnippetRunner.Proofs.Language.Spelling
import SnippetRunner.Proofs.Runner.Sequence
import SnippetRunner.Runner.Front

/-!
# Which catalogs can be built, and what identifiers address in them

A catalog can be built of some languages exactly where no name is empty and no two of the languages share
one. Each name belongs to one language then, and leads to it in all its spellings; an identifier that is
a spelling of no name leads nowhere. The table of names is built in the same cases, with the same failure
in the others, and leads where the catalog does.
-/

namespace SnippetRunner.Catalog

variable {ls earlier rest : List Language} {l m : Language} {name identifier : String}
  {names done : List String} {t : Index} {c : Catalog}

/-! ## Claims on names -/

/-- The language goes by the name. -/
def goesBy (name : String) (l : Language) : Bool := l.names.contains name

theorem goesBy_iff : goesBy name l = true ↔ name ∈ l.names := List.contains_iff_mem

theorem claimant?_eq (ls : List Language) (name : String) : claimant? ls name = ls.find? (goesBy name) :=
  rfl

theorem claimant?_eq_none_iff : claimant? ls name = none ↔ ∀ l ∈ ls, name ∉ l.names := by
  rw [claimant?_eq, List.find?_eq_none]
  simp only [goesBy_iff]

/-- The language shares no name with another one. -/
def Apart (l m : Language) : Prop := ∀ name ∈ l.names, name ∉ m.names

theorem Apart.symm (h : Apart l m) : Apart m l := fun name own other => h name other own

/-- Where no two languages share a name, each one is the only claimant of its names. -/
theorem claimant?_of_mem (apart : ls.Pairwise Apart) (inside : l ∈ ls) (own : name ∈ l.names) :
    claimant? ls name = some l := by
  induction apart with
  | nil => cases inside
  | @cons m ls first _ ih =>
    rw [claimant?_eq]
    by_cases claims : name ∈ m.names
    · rw [List.find?_cons_of_pos (goesBy_iff.2 claims)]
      rcases List.mem_cons.1 inside with rfl | later
      · rfl
      · exact absurd own (first l later name claims)
    · rw [List.find?_cons_of_neg (mt goesBy_iff.1 claims)]
      rcases List.mem_cons.1 inside with rfl | later
      · exact absurd own claims
      · exact ih later

/-! ## Checks -/

/-- The names of a language pass if none is empty and none belongs to a language before it. -/
theorem checkNames_eq_ok_iff :
    checkNames earlier l names = .ok () ↔ ∀ name ∈ names, name ≠ "" ∧ claimant? earlier name = none := by
  induction names with
  | nil => simp [checkNames]
  | cons name names ih =>
    rw [checkNames, List.forall_mem_cons, ← ih]
    by_cases empty : name = ""
    · simp [empty]
    · rw [if_neg empty]
      cases claimed : claimant? earlier name <;> simp [empty]

/-- All names of a language pass if none is empty and it shares none with a language before it. -/
theorem checkNames_names_eq_ok_iff :
    checkNames earlier l l.names = .ok () ↔ "" ∉ l.names ∧ ∀ m ∈ earlier, Apart l m := by
  rw [checkNames_eq_ok_iff]
  constructor
  · intro each
    refine ⟨fun inside => (each "" inside).1 rfl, fun m before name own => ?_⟩
    exact claimant?_eq_none_iff.1 (each name own).2 m before
  · rintro ⟨nonempty, apart⟩ name own
    refine ⟨fun empty => nonempty (empty ▸ own), claimant?_eq_none_iff.2 ?_⟩
    exact fun m before => apart m before name own

theorem checkFrom_cons_eq_ok_iff :
    checkFrom earlier (l :: rest) = .ok () ↔
      checkNames earlier l l.names = .ok () ∧ checkFrom (earlier ++ [l]) rest = .ok () := by
  rw [checkFrom]
  rcases checkNames earlier l l.names with f | ⟨⟩
  · exact ⟨nofun, nofun⟩
  · exact ⟨fun later => ⟨rfl, later⟩, And.right⟩

/-- Languages pass if they have no empty name, and share none with each other or with those before. -/
theorem checkFrom_eq_ok_iff :
    checkFrom earlier rest = .ok () ↔
      (∀ l ∈ rest, "" ∉ l.names ∧ ∀ m ∈ earlier, Apart l m) ∧ rest.Pairwise Apart := by
  induction rest generalizing earlier with
  | nil => simp [checkFrom]
  | cons l rest ih =>
    rw [checkFrom_cons_eq_ok_iff, checkNames_names_eq_ok_iff, ih, List.pairwise_cons]
    simp only [List.mem_append, List.mem_singleton, or_imp, forall_and, forall_eq, List.forall_mem_cons]
    -- of the language in front it is said that later ones share no name with it, and the reverse
    constructor
    · rintro ⟨⟨nonempty, apart⟩, ⟨nonempties, before, next⟩, apart'⟩
      exact ⟨⟨⟨nonempty, nonempties⟩, apart, before⟩, fun m later => (next m later).symm, apart'⟩
    · rintro ⟨⟨⟨nonempty, nonempties⟩, apart, before⟩, next, apart'⟩
      exact ⟨⟨nonempty, apart⟩, ⟨nonempties, before, fun m later => (next m later).symm⟩, apart'⟩

theorem build_eq_ok_iff :
    build ls = .ok c ↔ ((∀ l ∈ ls, "" ∉ l.names) ∧ ls.Pairwise Apart) ∧ c = ⟨ls⟩ := by
  have passes : (∀ l ∈ ls, "" ∉ l.names) ∧ ls.Pairwise Apart ↔ checkFrom [] ls = .ok () := by
    rw [checkFrom_eq_ok_iff]
    simp
  rw [passes]
  unfold build
  rcases checkFrom [] ls with f | ⟨⟩
  · exact ⟨nofun, nofun⟩
  · exact ⟨fun is => ⟨rfl, (Except.ok.inj is).symm⟩, fun h => congrArg Except.ok h.2.symm⟩

/-! ## The table of names -/

/-- The place of the language that goes by a name. -/
def place? (ls : List Language) (name : String) : Option Nat := ls.findIdx? (goesBy name)

theorem claimant?_eq_bind (ls : List Language) (name : String) :
    claimant? ls name = (place? ls name).bind fun i => ls[i]? := by
  rw [claimant?_eq]
  unfold place?
  induction ls with
  | nil => rfl
  | cons l ls ih =>
    rw [List.findIdx?_cons]
    by_cases own : goesBy name l = true
    · rw [List.find?_cons_of_pos own, if_pos own]
      rfl
    · rw [List.find?_cons_of_neg own, if_neg own, ih]
      cases ls.findIdx? (goesBy name) <;> rfl

theorem place?_concat (earlier : List Language) (l : Language) (name : String) :
    place? (earlier ++ [l]) name =
      (place? earlier name).or (if name ∈ l.names then some earlier.length else none) := by
  unfold place?
  rw [List.findIdx?_append, List.findIdx?_singleton]
  by_cases own : name ∈ l.names
  · rw [if_pos (goesBy_iff.2 own), if_pos own, Option.map_some, Nat.zero_add]
  · rw [if_neg (mt goesBy_iff.1 own), if_neg own, Option.map_none]

namespace Index

/-- The table leads from every name of the languages to the first one that goes by it. -/
def LeadsTo (t : Index) (ls : List Language) : Prop := ∀ name, t.get? name = place? ls name

/-- The same within a language some of whose names have been entered, none of which belongs to a
language before it. -/
def LeadsWithin (t : Index) (earlier : List Language) (done : List String) : Prop :=
  ∀ name, t.get? name = (place? earlier name).or (if name ∈ done then some earlier.length else none)

theorem LeadsWithin.enter (h : LeadsWithin t earlier done) (free : place? earlier name = none) :
    LeadsWithin (t.set name earlier.length) earlier (done ++ [name]) := by
  intro k
  rw [Table.get?_set, h k]
  by_cases same : k = name
  · rw [if_pos same, same, free, if_pos (by simp)]
    rfl
  · rw [if_neg same]
    simp [same]

/-- Entering the names of a language fails where the check of them fails, with the same failure. -/
theorem enterNames_eq (l : Language) (later : List Language) (names : List String)
    (h : LeadsWithin t earlier done) :
    (checkNames earlier l names = .ok () ∧
      ∃ t', enterNames (earlier ++ l :: later) l earlier.length t names = .ok t' ∧
        LeadsWithin t' earlier (done ++ names)) ∨
    ∃ f, checkNames earlier l names = .error f ∧
      enterNames (earlier ++ l :: later) l earlier.length t names = .error f := by
  induction names generalizing t done with
  | nil => exact .inl ⟨rfl, t, rfl, by rwa [List.append_nil]⟩
  | cons name names ih =>
    rw [checkNames, enterNames, h name, claimant?_eq_bind]
    by_cases empty : name = ""
    · exact .inr ⟨_, if_pos empty, if_pos empty⟩
    · rw [if_neg empty, if_neg empty]
      cases taken : place? earlier name with
      | some i =>
        -- the name belongs to a language before this one
        have before : i < earlier.length := (List.findIdx?_eq_some_iff_getElem.1 taken).1
        have other : (earlier ++ l :: later)[i]? = some earlier[i] := by
          rw [List.getElem?_append_left before, List.getElem?_eq_getElem before]
        right
        simp only [Option.some_or, Option.bind_some, List.getElem?_eq_getElem before,
          if_neg (Nat.ne_of_lt before), other, Option.elim_some]
        exact ⟨_, rfl, rfl⟩
      | none =>
        have next := ih (h.enter taken)
        rw [List.append_assoc, List.singleton_append] at next
        simp only [Option.none_or, Option.bind_none]
        by_cases again : name ∈ done
        · simpa only [if_pos again, if_true] using next
        · simpa only [if_neg again] using next

theorem enterFrom_eq (rest : List Language) (h : LeadsTo t earlier) :
    (checkFrom earlier rest = .ok () ∧
      ∃ t', enterFrom (earlier ++ rest) earlier.length t rest = .ok t' ∧ LeadsTo t' (earlier ++ rest)) ∨
    ∃ f, checkFrom earlier rest = .error f ∧
      enterFrom (earlier ++ rest) earlier.length t rest = .error f := by
  induction rest generalizing t earlier with
  | nil => exact .inl ⟨rfl, t, rfl, by rwa [List.append_nil]⟩
  | cons l rest ih =>
    have begun : LeadsWithin t earlier [] := by
      intro name
      rw [h name, if_neg List.not_mem_nil, Option.or_none]
    rw [checkFrom, enterFrom]
    obtain ⟨passes, t', entered, leads⟩ | ⟨f, fails, refused⟩ :=
      enterNames_eq l rest l.names begun
    · have whole : LeadsTo t' (earlier ++ [l]) := by
        intro name
        rw [leads name, place?_concat, List.nil_append]
      have next := ih whole
      rw [List.append_assoc, List.singleton_append, List.length_append, List.length_singleton] at next
      rw [passes, entered]
      exact next
    · rw [fails, refused]
      exact .inr ⟨f, rfl, rfl⟩

/-- The table is built in the same cases as the catalog, fails as it does in the others, and leads where
it does. -/
theorem build_cases (ls : List Language) :
    (∃ t, build ls = .ok t ∧ Catalog.build ls = .ok ⟨ls⟩ ∧
      ∀ identifier, t.find? ls identifier = Catalog.find? ⟨ls⟩ identifier) ∨
    ∃ f, build ls = .error f ∧ Catalog.build ls = .error f := by
  have empty : LeadsTo .empty [] := fun _ => rfl
  obtain ⟨passes, t, entered, leads⟩ | ⟨f, fails, refused⟩ := enterFrom_eq ls empty
  · refine .inl ⟨t, entered, ?_, fun identifier => ?_⟩
    · unfold Catalog.build
      rw [passes]
      rfl
    · unfold find? Catalog.find?
      rw [leads, claimant?_eq_bind]
      rfl
  · refine .inr ⟨f, refused, ?_⟩
    unfold Catalog.build
    rw [fails]
    rfl

end Index

/-! ## Identifiers -/

section Identifiers

variable {World : Type} {x : Executors World} {r : Runner World}

/-- How the executor of a language is come by, with what is returned and the runner after it. -/
inductive Comes (x : Executors World) (r : Runner World) (l : Language) :
    Except Failure (Language × Runner.ExecutorId) × Runner World → Prop where
  | there {e : Runner.ExecutorId} (there : (r.slot l.id).executor = some e) : Comes x r l (.ok (l, e), r)
  | made {w : World} {s : Runner.Slot} (missing : (r.slot l.id).executor = none)
    (made : x.construct l.id r.world = (.ok (), w)) (kept : s.executor = some r.made) :
    Comes x r l (.ok (l, r.made), { r with world := w, made := r.made + 1 }.setSlot l.id s)
  | failed {f : Failure} {w : World} {s : Runner.Slot} (missing : (r.slot l.id).executor = none)
    (failed : x.construct l.id r.world = (.error f, w)) (empty : s.executor = none) :
    Comes x r l (.error f, { r with world := w }.setSlot l.id s)

/-- The identifier addresses the language: the catalog knows it, and it is the executor of this language
that is asked for, be it by callers one after another or side by side. -/
structure Addresses (c : Catalog) (identifier : String) (l : Language) : Prop where
  supported : c.supports identifier = true
  found : c.find identifier = .ok l
  loaded {World : Type} {r : Runner World} : r.catalog = c →
    r.loaded identifier = .ok (if (r.slot l.id).executor.isSome then some l else none)
  resolved {World : Type} (x : Executors World) {r : Runner World} : r.catalog = c →
    Comes x r l (r.resolve x identifier)
  /-- A call among others looks at the cell of the language. -/
  seen {σ : Type} (x : Runner.Cell σ) {s : Runner.Front σ} : s.catalog = c →
    s.executor? x identifier = .ok (x.executor (s.cell x l.id))
  /-- It finds the executor there, or gets in line for it. -/
  asked {σ : Type} (x : Runner.Cell σ) {s : Runner.Front σ} : s.catalog = c →
    (s.ask x identifier).call? s.asked = some (match (x.ask (s.cell x l.id) s.asked).1 with
      | some e => .answered (.ok (l, e))
      | none => .waiting l)

/-- The identifier addresses nothing, and the failure names it as it was written. -/
structure Refuses (c : Catalog) (identifier : String) : Prop where
  unsupported : c.supports identifier = false
  missing : c.find identifier = .error (.unsupportedLanguage identifier)
  loaded {World : Type} {r : Runner World} : r.catalog = c →
    r.loaded identifier = .error (.unsupportedLanguage identifier)
  resolved {World : Type} (x : Executors World) {r : Runner World} : r.catalog = c →
    r.resolve x identifier = (.error (.unsupportedLanguage identifier), r)
  seen {σ : Type} (x : Runner.Cell σ) {s : Runner.Front σ} : s.catalog = c →
    s.executor? x identifier = .error (.unsupportedLanguage identifier)
  asked {σ : Type} (x : Runner.Cell σ) {s : Runner.Front σ} : s.catalog = c →
    (s.ask x identifier).call? s.asked = some (.answered (.error (.unsupportedLanguage identifier)))

/-- Whoever makes the executor that a caller has asked for, the slot has it afterwards, or is as empty as
it was. -/
theorem executor_settle_ask {s : Runner.Slot} (d : Runner.CallerId) (missing : s.executor = none)
    (result : Except Failure Runner.ExecutorId) :
    ((s.ask d).2.settle result).2.executor = result.toOption := by
  unfold Runner.Slot.ask
  rw [missing]
  cases s.maker <;> cases result <;> simp [Runner.Slot.settle, Except.toOption]

/-- A caller comes by the executor of the language that the identifier leads to. -/
theorem comes_of_find (found : r.catalog.find identifier = .ok l) :
    Comes x r l (r.resolve x identifier) := by
  unfold Runner.resolve
  rw [found]
  dsimp only
  cases there : (r.slot l.id).executor with
  | some e =>
    simp only [Runner.Slot.ask, there]
    exact .there there
  | none =>
    have asked : (r.slot l.id).ask Runner.soleCaller = (none, ((r.slot l.id).ask Runner.soleCaller).2) := by
      unfold Runner.Slot.ask
      rw [there]
    rw [asked]
    rcases outcome : x.construct l.id r.world with ⟨f | ⟨⟩, w⟩
    · exact .failed there outcome (executor_settle_ask _ there _)
    · exact .made there outcome (executor_settle_ask _ there _)

/-- What a lookup finds is what everything else addresses. -/
theorem addresses_of_find? (known : c.find? identifier = some l) : c.Addresses identifier l := by
  have found : c.find identifier = .ok l := by
    unfold find
    rw [known]
  refine ⟨?_, found, ?_, ?_, ?_, ?_⟩
  · unfold supports
    rw [known]
    rfl
  · rintro World r rfl
    unfold Runner.loaded
    rw [found]
    rfl
  · rintro World x r rfl
    exact comes_of_find found
  · rintro σ x s rfl
    unfold Runner.Front.executor?
    rw [found]
    rfl
  · rintro σ x s rfl
    unfold Runner.Front.ask
    rw [found]
    dsimp only
    rcases x.ask (s.cell x l.id) s.asked with ⟨_ | e, a⟩
    · exact (Table.get?_set s.calls s.asked s.asked _).trans (if_pos rfl)
    · exact (Table.get?_set s.calls s.asked s.asked _).trans (if_pos rfl)

/-- Where a lookup finds nothing, everything else fails. -/
theorem refuses_of_find? (unknown : c.find? identifier = none) : c.Refuses identifier := by
  have missing : c.find identifier = .error (.unsupportedLanguage identifier) := by
    unfold find
    rw [unknown]
  refine ⟨?_, missing, ?_, ?_, ?_, ?_⟩
  · unfold supports
    rw [unknown]
    rfl
  · rintro World r rfl
    unfold Runner.loaded
    rw [missing]
    rfl
  · rintro World x r rfl
    unfold Runner.resolve
    rw [missing]
  · rintro σ x s rfl
    unfold Runner.Front.executor?
    rw [missing]
    rfl
  · rintro σ x s rfl
    unfold Runner.Front.ask
    rw [missing]
    exact (Table.get?_set s.calls s.asked s.asked _).trans (if_pos rfl)

end Identifiers

/-! ## Catalogs -/

/-- A catalog can be built of some languages exactly where none of their names is empty and no two of
them share one, and holds them in their order. In it every name, however it is written, addresses the
language that it belongs to, which has an executor of its own, and an identifier that is nobody's name is
refused. The table of names leads where the catalog does; where there is none, both fail alike. -/
theorem build_and_lookup (ls : List Language) :
    ((∃ c, build ls = .ok c) ↔ (∀ l ∈ ls, "" ∉ l.names) ∧ ls.Pairwise Apart) ∧
      (∀ c, build ls = .ok c →
        c.languages = ls ∧ (ls.map Language.id).Nodup ∧
          (∀ l ∈ ls, ∀ name ∈ l.written, ∀ identifier, Language.Writes name identifier →
            c.Addresses identifier l) ∧
          (∀ identifier, (∀ l ∈ ls, Language.normalize identifier ∉ l.names) → c.Refuses identifier) ∧
          ∃ t, Index.build ls = .ok t ∧ ∀ identifier, t.find? ls identifier = c.find? identifier) ∧
      ∀ f, build ls = .error f ↔ Index.build ls = .error f := by
  refine ⟨?_, ?_, ?_⟩
  · simp only [build_eq_ok_iff, exists_and_left, exists_eq, and_true]
  · intro c built
    obtain ⟨⟨-, apart⟩, rfl⟩ := build_eq_ok_iff.1 built
    refine ⟨rfl, ?_, ?_, ?_, ?_⟩
    · -- an id is a name, so two languages do not have the same one
      refine List.pairwise_map.2 (apart.imp ?_)
      intro l m distinct same
      have own : Language.normalize l.id ∈ l.names := List.mem_cons_self ..
      have other : Language.normalize l.id ∈ m.names := same ▸ List.mem_cons_self ..
      exact distinct _ own other
    · intro l inside name own identifier writes
      have normal : Language.normalize identifier ∈ l.names := by
        rw [Language.normalize_of_writes writes]
        exact List.mem_map_of_mem own
      exact addresses_of_find? (claimant?_of_mem apart inside normal)
    · intro identifier nobody
      exact refuses_of_find? (claimant?_eq_none_iff.2 nobody)
    · obtain ⟨t, entered, -, alike⟩ | ⟨f, -, fails⟩ := Index.build_cases ls
      · exact ⟨t, entered, alike⟩
      · rw [built] at fails
        cases fails
  · intro f
    obtain ⟨t, entered, built, -⟩ | ⟨g, refused, fails⟩ := Index.build_cases ls
    · rw [entered, built]
      exact ⟨nofun, nofun⟩
    · rw [refused, fails]
      simp

end SnippetRunner.Catalog
