import Mathlib.Logic.Equiv.Basic
import SnippetRunner.Proofs.Runner.Contract
import SnippetRunner.Proofs.Runner.Sequence

/-!
# Languages by themselves

The executors of different languages share nothing, and a runner adds nothing that they would share:
what is asked of one language makes no difference to another one. So operations on other languages can
be left out, and what is seen of a language stays as it is. Only the numbers of executors change, since
they count the executors of all languages.

Two runs are compared operation by operation. An operation on another language spares everything that
belongs to the language in question; any other operation is carried out in both runs, and comes out
alike.
-/

namespace SnippetRunner

variable {World Part : Type}

/-- What is done with the executor of a language concerns one part of the world: it depends on this
part alone, and changes no other one. -/
structure Executors.Separate (x : Executors World) (part : String → World → Part) : Prop where
  apart {id other : String} {w w' : World} : x.Acts id w w' → other ≠ id →
    part other w' = part other w
  phase {id : String} {w w' : World} : part id w = part id w' → x.phase id w = x.phase id w'
  construct {id : String} {w w' : World} : part id w = part id w' →
    (x.construct id w).1 = (x.construct id w').1 ∧
      part id (x.construct id w).2 = part id (x.construct id w').2
  prepare {id : String} {w w' : World} : part id w = part id w' →
    (x.prepare id w).1 = (x.prepare id w').1 ∧ part id (x.prepare id w).2 = part id (x.prepare id w').2
  execute (code : String) (budget : Option Budget) {id : String} {w w' : World} :
    part id w = part id w' →
    (x.execute id code budget w).1 = (x.execute id code budget w').1 ∧
      part id (x.execute id code budget w).2 = part id (x.execute id code budget w').2
  terminate {id : String} {w w' : World} : part id w = part id w' →
    part id (x.terminate id w) = part id (x.terminate id w')

namespace Runner

/-! ## Operations and replies -/

/-- The identifier that an operation is addressed to, if it is not for all languages. -/
def Operation.identifier? : Operation → Option String
  | .execute identifier .. | .prewarm identifier | .resolve identifier | .terminate identifier =>
    some identifier
  | .terminateAll => none

/-- The operation is addressed to another language. -/
def Operation.isForeign (catalog : Catalog) (id : String) (o : Operation) : Bool :=
  match o.identifier?.bind catalog.find? with
  | some l => l.id != id
  | none => false

/-- The reply with executors under other numbers. -/
def Reply.renumber (f : ExecutorId → ExecutorId) : Reply → Reply
  | .executed r => .executed r
  | .done r => .done r
  | .resolved r => .resolved (r.map fun p => (p.1, f p.2))

/-- What operations return, one after the other. -/
def replies (x : Executors World) : Runner World → List Operation → List (Operation × Reply)
  | _, [] => []
  | r, o :: ops => (o, (r.perform x o).1) :: replies x (r.perform x o).2 ops

variable {x : Executors World} {part : String → World → Part} {catalog : Catalog}
  {id identifier code : String} {budget : Option Budget} {elapsed : Span} {l : Language}
  {e : ExecutorId}
  {o : Operation} {w w' : World} {r r' r₁ r₂ : Runner World}

theorem own_of_not_isForeign (own : o.isForeign catalog id = false)
    (addressed : o.identifier? = some identifier) (known : catalog.find? identifier = some l) :
    l.id = id := by
  unfold Operation.isForeign at own
  rw [addressed, Option.bind_some, known] at own
  simpa using own

theorem foreign_of_isForeign (foreign : o.isForeign catalog id = true) :
    ∃ identifier l, o.identifier? = some identifier ∧ catalog.find? identifier = some l ∧
      l.id ≠ id := by
  unfold Operation.isForeign at foreign
  cases addressed : o.identifier? with
  | none =>
    rw [addressed] at foreign
    cases foreign
  | some identifier =>
    rw [addressed, Option.bind_some] at foreign
    cases known : catalog.find? identifier with
    | none =>
      rw [known] at foreign
      cases foreign
    | some l =>
      rw [known] at foreign
      exact ⟨identifier, l, rfl, known, by simpa using foreign⟩

theorem resolve_of_unknown (unknown : r.catalog.find? identifier = none) :
    r.resolve x identifier = (.error (.unsupportedLanguage identifier), r) := by
  unfold resolve Catalog.find
  rw [unknown]

theorem resolve_of_there (known : r.catalog.find? identifier = some l)
    (there : (r.slot l.id).executor = some e) : r.resolve x identifier = (.ok (l, e), r) := by
  unfold Runner.resolve Catalog.find
  simp only [known, Slot.ask, there]

/-- An executor that is missing is made, or the attempt fails and leaves the slot empty. -/
theorem IsSettled.resolve_of_missing (h : r.IsSettled) (known : r.catalog.find? identifier = some l)
    (missing : (r.slot l.id).executor = none) : r.resolve x identifier =
      match x.construct l.id r.world with
      | (.error f, w) => (.error f, { r with world := w }.setSlot l.id .empty)
      | (.ok (), w) => (.ok (l, r.made),
          { r with world := w, made := r.made + 1 }.setSlot l.id ⟨some r.made, none, []⟩) := by
  obtain ⟨maker, queue⟩ := h l.id
  unfold Runner.resolve Catalog.find
  simp only [known, Slot.ask, missing, maker, Option.isNone_none, if_true]
  rcases x.construct l.id r.world with ⟨f | ⟨⟩, w⟩
  · simp only [Slot.settle, queue]
    rfl
  · rfl

/-- An execution that does not get to its language returns the same in every runner with these
languages, and changes none. All others come to the executor of their language. -/
theorem execute_cases (x : Executors World) (catalog : Catalog) (identifier code : String)
    (budget : Option Budget) (elapsed : Span) :
    (∃ reply, ∀ r : Runner World, r.catalog = catalog →
      r.execute x identifier code budget elapsed = (reply, r)) ∨
    ∀ r : Runner World, r.execute x identifier code budget elapsed =
      match r.resolve x identifier with
      | (.error f, r) => (.error f, r)
      | (.ok (l, _), r) => r.serve x l.id code budget elapsed := by
  cases blank : Text.allBlank code with
  | true => exact .inl ⟨_, fun r serves => serves ▸ execute_of_blank blank⟩
  | false =>
    cases budget with
    | none => exact .inr fun r => execute_of_visible blank (by simp)
    | some b =>
      cases outcome : b.validate with
      | ok => exact .inr fun r => execute_of_visible blank (by simpa using outcome)
      | error f => exact .inl ⟨_, fun r _ => execute_of_invalid blank outcome⟩

/-! ## Executors that are kept -/

theorem slot_serve {k : String} : (r.serve x k code budget elapsed).2.slot id = r.slot id := by
  unfold serve
  rcases (if x.phase k r.world = .ready then (.ok (), r.world) else x.prepare k r.world :
    Except Failure Unit × World) with ⟨f | ⟨⟩, w⟩ <;> rfl

theorem executor_resolve (settled : r.IsSettled) (there : (r.slot id).executor = some e) :
    ((r.resolve x identifier).2.slot id).executor = some e := by
  have way : Resolution x r identifier (r.resolve x identifier) := settled.resolution
  generalize r.resolve x identifier = p at way
  -- a slot that is set has been empty
  have other {l : Language} (missing : (r.slot l.id).executor = none) : id ≠ l.id := by
    rintro rfl
    exact absurd (there.symm.trans missing) nofun
  cases way with
  | unknown | there => exact there
  | failed _ missing | made _ missing =>
    rw [slot_setSlot_of_ne (other missing)]
    exact there

/-- An executor that has been made is kept. -/
theorem executor_perform (settled : r.IsSettled) (there : (r.slot id).executor = some e) :
    ((r.perform x o).2.slot id).executor = some e := by
  have kept (identifier : String) : ((r.resolve x identifier).2.slot id).executor = some e :=
    executor_resolve settled there
  cases o with
  | execute i code budget elapsed =>
    show ((r.execute x i code budget elapsed).2.slot id).executor = some e
    rcases execute_cases x r.catalog i code budget elapsed with ⟨reply, early⟩ | late
    · rw [early r rfl]
      exact there
    · have kept := kept i
      rw [late r]
      generalize r.resolve x i = p at kept
      rcases p with ⟨f | ⟨l, e⟩, r₁⟩
      · exact kept
      · exact (congrArg Slot.executor slot_serve).trans kept
  | prewarm i =>
    have kept := kept i
    show ((r.prewarm x i).2.slot id).executor = some e
    unfold prewarm
    generalize r.resolve x i = p at kept
    rcases p with ⟨f | ⟨l, e⟩, r₁⟩ <;> exact kept
  | resolve i => exact kept i
  | terminate i =>
    show ((r.terminate x i).2.slot id).executor = some e
    unfold terminate
    rcases r.loaded i with f | _ | l <;> exact there
  | terminateAll => exact there

/-! ## Operations on other languages -/

/-- What belongs to a language is the same in both runners. -/
structure Spares (part : String → World → Part) (id : String) (r r' : Runner World) : Prop where
  catalog : r'.catalog = r.catalog
  settled : r'.IsSettled
  slot : r'.slot id = r.slot id
  part : part id r'.world = part id r.world

namespace Spares

theorem refl (settled : r.IsSettled) : Spares part id r r := ⟨rfl, settled, rfl, rfl⟩

theorem trans (first : Spares part id r r₁) (second : Spares part id r₁ r₂) :
    Spares part id r r₂ where
  catalog := second.catalog.trans first.catalog
  settled := second.settled
  slot := second.slot.trans first.slot
  part := second.part.trans first.part

variable (separate : x.Separate part)

include separate

/-- The executor of another language does something. -/
theorem act (settled : r.IsSettled) {other : String} (acts : x.Acts other r.world w)
    (foreign : other ≠ id) : Spares part id r { r with world := w } :=
  ⟨rfl, settled, rfl, separate.apart acts foreign.symm⟩

/-- An executor of another language is found or made. -/
theorem resolve (settled : r.IsSettled) (known : r.catalog.find? identifier = some l)
    (foreign : l.id ≠ id) : Spares part id r (r.resolve x identifier).2 ∧
      ∀ p, (r.resolve x identifier).1 = .ok p → p.1 = l := by
  have way : Resolution x r identifier (r.resolve x identifier) := settled.resolution
  generalize r.resolve x identifier = p at way
  cases way with
  | unknown unknown => exact ⟨.refl settled, nofun⟩
  | there known' =>
    refine ⟨.refl settled, fun p is => ?_⟩
    rw [← Except.ok.inj is]
    exact Option.some.inj (known'.symm.trans known)
  | failed known' missing failed =>
    obtain rfl := Option.some.inj (known'.symm.trans known)
    obtain rfl := congrArg Prod.snd failed
    refine ⟨⟨rfl, settled.setSlot rfl rfl, slot_setSlot_of_ne foreign.symm, ?_⟩, nofun⟩
    exact separate.apart .construct foreign.symm
  | made known' missing made =>
    obtain rfl := Option.some.inj (known'.symm.trans known)
    obtain rfl := congrArg Prod.snd made
    refine ⟨⟨rfl, settled.setSlot rfl rfl, slot_setSlot_of_ne foreign.symm, ?_⟩, fun p is => ?_⟩
    · exact separate.apart .construct foreign.symm
    · rw [← Except.ok.inj is]

/-- The executor of another language executes code. -/
theorem serve (settled : r.IsSettled) (foreign : l.id ≠ id) :
    Spares part id r (r.serve x l.id code budget elapsed).2 := by
  unfold Runner.serve
  by_cases ready : x.phase l.id r.world = .ready
  · rw [if_pos ready]
    exact act separate settled (.execute code budget) foreign
  · rw [if_neg ready]
    have prepared := act separate settled (w := (x.prepare l.id r.world).2) .prepare foreign
    rcases outcome : x.prepare l.id r.world with ⟨f | ⟨⟩, w⟩
    · rw [outcome] at prepared
      exact prepared
    · rw [outcome] at prepared
      exact prepared.trans (act separate prepared.settled (.execute code budget) foreign)

/-- Whatever is asked of another language spares this one. -/
theorem perform (settled : r.IsSettled) (foreign : o.isForeign r.catalog id = true) :
    Spares part id r (r.perform x o).2 := by
  obtain ⟨identifier, l, addressed, known, other⟩ := foreign_of_isForeign foreign
  obtain ⟨resolved, same⟩ := resolve separate settled known other
  cases o with
  | terminateAll => cases addressed
  | execute i code budget elapsed =>
    obtain rfl := Option.some.inj addressed
    show Spares part id r (r.execute x i code budget elapsed).2
    rcases execute_cases x r.catalog i code budget elapsed with ⟨reply, early⟩ | late
    · rw [early r rfl]
      exact .refl settled
    · rw [late r]
      rcases outcome : r.resolve x i with ⟨f | ⟨k, e⟩, r₁⟩
      · rw [outcome] at resolved
        exact resolved
      · rw [outcome] at resolved same
        obtain rfl : k = l := same _ rfl
        exact resolved.trans (serve separate resolved.settled other)
  | prewarm i =>
    obtain rfl := Option.some.inj addressed
    show Spares part id r (r.prewarm x i).2
    unfold Runner.prewarm
    rcases outcome : r.resolve x i with ⟨f | ⟨k, e⟩, r₁⟩
    · rw [outcome] at resolved
      exact resolved
    · rw [outcome] at resolved same
      obtain rfl : k = l := same _ rfl
      exact resolved.trans (act separate resolved.settled .prepare other)
  | resolve i =>
    obtain rfl := Option.some.inj addressed
    exact resolved
  | terminate i =>
    obtain rfl := Option.some.inj addressed
    show Spares part id r (r.terminate x i).2
    rw [terminate_of_known known]
    show Spares part id r (if (r.slot l.id).executor.isSome then _ else r)
    split
    · exact act separate settled .terminate other
    · exact .refl settled

end Spares

/-! ## Operations in two runs -/

/-- Two runners with the same languages are alike for one of them: its executor is in the same state,
or has been made in neither. -/
structure Alike (catalog : Catalog) (part : String → World → Part) (id : String)
    (r r' : Runner World) : Prop where
  serves : r.catalog = catalog
  serves' : r'.catalog = catalog
  settled : r.IsSettled
  settled' : r'.IsSettled
  made : (r'.slot id).executor.isSome = (r.slot id).executor.isSome
  part : part id r'.world = part id r.world

/-- The numbers of the executor in both runners belong together. -/
def Renames (f : ExecutorId → ExecutorId) (id : String) (r r' : Runner World) : Prop :=
  ∀ e e', (r.slot id).executor = some e → (r'.slot id).executor = some e' → f e = e'

/-- The executor of the language is found in both runners, or cannot be made in either. -/
inductive FoundAlike (catalog : Catalog) (part : String → World → Part) (id : String) :
    Except Failure (Language × ExecutorId) × Runner World →
    Except Failure (Language × ExecutorId) × Runner World → Prop where
  | failed {f : Failure} {r r' : Runner World} (alike : Alike catalog part id r r') :
    FoundAlike catalog part id (.error f, r) (.error f, r')
  | found {l : Language} {e e' : ExecutorId} {r r' : Runner World} (own : l.id = id)
    (there : (r.slot id).executor = some e) (there' : (r'.slot id).executor = some e')
    (alike : Alike catalog part id r r') : FoundAlike catalog part id (.ok (l, e), r) (.ok (l, e'), r')

namespace Alike

variable (h : Alike catalog part id r r')

include h

/-- Another operation in the first run makes no difference. -/
theorem spares (spared : Spares part id r r₁) : Alike catalog part id r₁ r' where
  serves := spared.catalog.trans h.serves
  serves' := h.serves'
  settled := spared.settled
  settled' := h.settled'
  made := by rw [spared.slot, h.made]
  part := h.part.trans spared.part.symm

/-- The executor does the same in both runs. -/
theorem act (same : part id w' = part id w) :
    Alike catalog part id { r with world := w } { r' with world := w' } :=
  ⟨h.serves, h.serves', h.settled, h.settled', h.made, same⟩

/-- Its slot is filled in both runs, or is left empty in both. -/
theorem setSlot {n n' : Nat} {s s' : Slot} (same : part id w' = part id w)
    (free : s.maker = none ∧ s.queue = []) (free' : s'.maker = none ∧ s'.queue = [])
    (filled : s'.executor.isSome = s.executor.isSome) :
    Alike catalog part id ({ r with world := w, made := n }.setSlot id s)
      ({ r' with world := w', made := n' }.setSlot id s') where
  serves := h.serves
  serves' := h.serves'
  settled := h.settled.setSlot free.1 free.2
  settled' := h.settled'.setSlot free'.1 free'.2
  made := by rw [slot_setSlot_self, slot_setSlot_self, filled]
  part := same

theorem there_iff : (r'.slot id).executor = none ↔ (r.slot id).executor = none := by
  rw [← Option.not_isSome_iff_eq_none, ← Option.not_isSome_iff_eq_none, h.made]

variable (separate : x.Separate part)

include separate

/-- The executor is come by in the same way. -/
theorem resolve (own : ∀ l, catalog.find? identifier = some l → l.id = id) :
    FoundAlike catalog part id (r.resolve x identifier) (r'.resolve x identifier) := by
  have addressed : r.catalog.find? identifier = catalog.find? identifier := by rw [h.serves]
  have addressed' : r'.catalog.find? identifier = catalog.find? identifier := by rw [h.serves']
  cases known : catalog.find? identifier with
  | none =>
    rw [resolve_of_unknown (addressed.trans known), resolve_of_unknown (addressed'.trans known)]
    exact .failed h
  | some l =>
    obtain rfl := own l known
    cases there : (r.slot l.id).executor with
    | some e =>
      obtain ⟨e', there'⟩ : ∃ e', (r'.slot l.id).executor = some e' := by
        rw [← Option.isSome_iff_exists, h.made, there]
        rfl
      rw [resolve_of_there (addressed.trans known) there,
        resolve_of_there (addressed'.trans known) there']
      exact .found rfl there there' h
    | none =>
      rw [h.settled.resolve_of_missing (addressed.trans known) there,
        h.settled'.resolve_of_missing (addressed'.trans known) (h.there_iff.2 there)]
      have result := separate.construct h.part
      rcases outcome : x.construct l.id r.world with ⟨f | ⟨⟩, w⟩ <;>
        rcases outcome' : x.construct l.id r'.world with ⟨f' | ⟨⟩, w'⟩ <;>
        rw [outcome, outcome'] at result
      · obtain rfl := Except.error.inj result.1
        exact .failed (h.setSlot result.2 ⟨rfl, rfl⟩ ⟨rfl, rfl⟩ rfl)
      · cases result.1
      · cases result.1
      · exact .found rfl (congrArg Slot.executor slot_setSlot_self)
          (congrArg Slot.executor slot_setSlot_self)
          (h.setSlot result.2 ⟨rfl, rfl⟩ ⟨rfl, rfl⟩ rfl)

/-- The executor is made ready in both runs, or fails in both. -/
theorem prepare : (x.prepare id r'.world).1 = (x.prepare id r.world).1 ∧
    Alike catalog part id { r with world := (x.prepare id r.world).2 }
      { r' with world := (x.prepare id r'.world).2 } := by
  obtain ⟨result, same⟩ := separate.prepare h.part
  exact ⟨result, h.act same⟩

theorem execute : ((x.execute id code budget r'.world).1.map fun q => q.taking elapsed) =
      ((x.execute id code budget r.world).1.map fun q => q.taking elapsed) ∧
    Alike catalog part id { r with world := (x.execute id code budget r.world).2 }
      { r' with world := (x.execute id code budget r'.world).2 } := by
  obtain ⟨result, same⟩ := separate.execute code budget h.part
  exact ⟨congrArg (Except.map fun q => q.taking elapsed) result, h.act same⟩

variable (code budget elapsed) in
/-- The executor executes code with the same result. -/
theorem serve : (r'.serve x id code budget elapsed).1 = (r.serve x id code budget elapsed).1 ∧
    Alike catalog part id (r.serve x id code budget elapsed).2
      (r'.serve x id code budget elapsed).2 := by
  unfold Runner.serve
  rw [separate.phase h.part]
  by_cases ready : x.phase id r.world = .ready
  · rw [if_pos ready, if_pos ready]
    exact h.execute separate
  · rw [if_neg ready, if_neg ready]
    obtain ⟨result, prepared⟩ := h.prepare separate
    rcases outcome : x.prepare id r.world with ⟨f | ⟨⟩, w⟩ <;>
      rcases outcome' : x.prepare id r'.world with ⟨f' | ⟨⟩, w'⟩ <;>
      rw [outcome, outcome'] at result prepared
    · obtain rfl := Except.error.inj result
      exact ⟨rfl, prepared⟩
    · cases result
    · cases result
    · exact prepared.execute separate

/-- Terminating all executors terminates this one in both runs. -/
theorem terminateAll : Alike catalog part id (r.terminateAll x) (r'.terminateAll x) := by
  -- the executors of other languages that are terminated, in one run or in both, are no matter
  have each : ∀ (ls : List Language) (w w' : World), part id w' = part id w →
      part id ((ls.filter fun l => (r'.slot l.id).executor.isSome).foldl
        (fun w l => x.terminate l.id w) w') =
      part id ((ls.filter fun l => (r.slot l.id).executor.isSome).foldl
        (fun w l => x.terminate l.id w) w) := by
    intro ls
    induction ls with
    | nil => exact fun _ _ same => same
    | cons l ls ih =>
      intro w w' same
      rw [List.filter_cons, List.filter_cons]
      by_cases own : l.id = id
      · rw [own, h.made]
        split
        · rw [List.foldl_cons, List.foldl_cons, own]
          exact ih _ _ (separate.terminate same)
        · exact ih _ _ same
      · have apart (w : World) : part id (x.terminate l.id w) = part id w :=
          separate.apart .terminate (Ne.symm own)
        split <;> split <;> apply ih <;> simp only [apart, same]
  unfold Runner.terminateAll
  rw [h.serves, h.serves']
  exact ⟨rfl, rfl, h.settled, h.settled', h.made, each catalog.languages r.world r'.world h.part⟩

/-- An operation that is not addressed to another language comes out alike. -/
theorem perform (own : o.isForeign catalog id = false) :
    Alike catalog part id (r.perform x o).2 (r'.perform x o).2 ∧
      ∀ f, Renames f id (r.perform x o).2 (r'.perform x o).2 →
        (r'.perform x o).1 = (r.perform x o).1.renumber f := by
  have own {i : String} (addressed : o.identifier? = some i) (l : Language) :
      catalog.find? i = some l → l.id = id := own_of_not_isForeign own addressed
  cases o with
  | execute i code budget elapsed =>
    simp only [Runner.perform]
    rcases execute_cases x catalog i code budget elapsed with ⟨reply, early⟩ | late
    · rw [early r h.serves, early r' h.serves']
      exact ⟨h, fun _ _ => rfl⟩
    · have way := h.resolve separate (own rfl)
      rw [late r, late r']
      generalize r.resolve x i = p at way
      generalize r'.resolve x i = p' at way
      cases way with
      | failed alike => exact ⟨alike, fun _ _ => rfl⟩
      | found own there there' alike =>
        subst own
        obtain ⟨result, alike⟩ := alike.serve code budget elapsed separate
        exact ⟨alike, fun _ _ => congrArg Reply.executed result⟩
  | prewarm i =>
    have way := h.resolve separate (own rfl)
    simp only [Runner.perform, Runner.prewarm]
    generalize r.resolve x i = p at way
    generalize r'.resolve x i = p' at way
    cases way with
    | failed alike => exact ⟨alike, fun _ _ => rfl⟩
    | found own there there' alike =>
      subst own
      obtain ⟨result, alike⟩ := alike.prepare separate
      exact ⟨alike, fun _ _ => congrArg Reply.done result⟩
  | resolve i =>
    have way := h.resolve separate (own rfl)
    simp only [Runner.perform]
    generalize r.resolve x i = p at way
    generalize r'.resolve x i = p' at way
    cases way with
    | failed alike => exact ⟨alike, fun _ _ => rfl⟩
    | @found l e e' _ _ own there there' alike =>
      refine ⟨alike, fun f renames => ?_⟩
      show Reply.resolved (.ok (l, e')) = .resolved (.ok (l, f e))
      rw [renames e e' there there']
  | terminate i =>
    simp only [Runner.perform]
    cases known : catalog.find? i with
    | none =>
      rw [terminate_of_unknown (h.serves.symm ▸ known), terminate_of_unknown (h.serves'.symm ▸ known)]
      exact ⟨h, fun _ _ => rfl⟩
    | some l =>
      obtain rfl := own rfl l known
      rw [terminate_of_known (h.serves.symm ▸ known), terminate_of_known (h.serves'.symm ▸ known), h.made]
      refine ⟨?_, fun _ _ => rfl⟩
      show Alike _ _ _ (if _ then _ else r) (if _ then _ else r')
      split
      · exact h.act (separate.terminate h.part)
      · exact h
  | terminateAll => exact ⟨h.terminateAll separate, fun _ _ => rfl⟩

end Alike

/-! ## Runs -/

/-- The numbers have belonged together before an operation if they do after it. -/
theorem Renames.before {f : ExecutorId → ExecutorId} (h : Renames f id r₁ r₂)
    (kept : ∀ e, (r.slot id).executor = some e → (r₁.slot id).executor = some e)
    (kept' : ∀ e, (r'.slot id).executor = some e → (r₂.slot id).executor = some e) :
    Renames f id r r' := fun e e' there there' => h e e' (kept e there) (kept' e' there')

/-- Without the operations on other languages, a run is alike for the language, and the replies are the
same under other numbers. -/
theorem Alike.run (separate : x.Separate part) (h : Alike catalog part id r r')
    (ops : List Operation) :
    Alike catalog part id (r.after x ops) (r'.after x (ops.filter fun o => !o.isForeign catalog id)) ∧
    ∃ σ : Equiv.Perm ExecutorId, Renames σ id r r' ∧
      r'.replies x (ops.filter fun o => !o.isForeign catalog id) =
        ((r.replies x ops).filter fun e => !e.1.isForeign catalog id).map
          fun e => (e.1, e.2.renumber σ) := by
  induction ops generalizing r r' with
  | nil =>
    refine ⟨h, ?_⟩
    -- the numbers that the executor has at the end belong together
    cases there : (r.slot id).executor with
    | none => exact ⟨.refl _, fun e _ is => absurd (there.symm.trans is) nofun, rfl⟩
    | some e =>
      cases there' : (r'.slot id).executor with
      | none => exact ⟨.refl _, fun _ e' _ is => absurd (there'.symm.trans is) nofun, rfl⟩
      | some e' =>
        refine ⟨Equiv.swap e e', fun d d' is is' => ?_, rfl⟩
        rw [← Option.some.inj (there.symm.trans is), ← Option.some.inj (there'.symm.trans is')]
        exact Equiv.swap_apply_left e e'
  | cons o ops ih =>
    have kept (e : ExecutorId) (there : (r.slot id).executor = some e) :=
      executor_perform (x := x) (o := o) h.settled there
    cases foreign : o.isForeign catalog id with
    | true =>
      have spared := Spares.perform separate h.settled (h.serves.symm ▸ foreign)
      obtain ⟨alike, σ, renames, same⟩ := ih (h.spares spared)
      simp only [replies, List.filter_cons, foreign]
      exact ⟨alike, σ, renames.before kept fun _ there => there, same⟩
    | false =>
      have kept' (e : ExecutorId) (there : (r'.slot id).executor = some e) :=
        executor_perform (x := x) (o := o) h.settled' there
      obtain ⟨next, reply⟩ := h.perform separate foreign
      obtain ⟨alike, σ, renames, same⟩ := ih next
      simp only [replies, List.filter_cons, foreign]
      refine ⟨alike, σ, renames.before kept kept', ?_⟩
      simp [replies, same, reply σ renames]

end Runner

/-! ## Troupes -/

namespace Bench.Troupe

variable {t t' : Troupe} {id k : String} {d : Deed} {f : Actor → Actor}

/-- What was done with the executor of a language. -/
def deedsOf (t : Troupe) (id : String) : List Deed := t.deeds.filter fun d => d.subject == id

/-- The executor of a language, and what was done with it. -/
def part (id : String) (t : Troupe) : Option Actor × List Deed := (t.actor? id, t.deedsOf id)

theorem part_note_of_ne (other : d.subject ≠ k) : part k (t.note d) = part k t := by
  unfold part deedsOf note
  simp [other, actor?]

theorem part_note (subject : d.subject = k) :
    part k (t.note d) = ((part k t).1, d :: (part k t).2) := by
  unfold part deedsOf note
  simp [subject, actor?]

theorem part_update_of_ne (kept : ∀ a, (f a).id = a.id) (other : k ≠ id) :
    part k (t.update id f) = part k t := by
  unfold part
  rw [actor?_update kept]
  refine congrArg (·, t.deedsOf k) ?_
  cases found : t.actor? k with
  | none => rfl
  | some a =>
    have away : a.id ≠ id := fun e => other ((id_of_actor? found).symm.trans e)
    rw [Option.map_some, if_neg away]

theorem part_update (kept : ∀ a, (f a).id = a.id) :
    part id (t.update id f) = ((part id t).1.map f, (part id t).2) := by
  unfold part
  rw [actor?_update kept]
  refine congrArg (·, t.deedsOf id) ?_
  cases found : t.actor? id with
  | none => rfl
  | some a => rw [Option.map_some, if_pos (id_of_actor? found), Option.map_some]

/-- A change of an actor is the same for all troupes in which it is the same. -/
theorem part_update_congr (kept : ∀ a, (f a).id = a.id) (same : part id t = part id t') :
    part id (t.update id f) = part id (t'.update id f) := by
  rw [part_update kept, part_update kept, same]

theorem part_note_congr (subject : d.subject = id) (same : part id t = part id t') :
    part id (t.note d) = part id (t'.note d) := by
  rw [part_note subject, part_note subject, same]

/-- What is done with an actor concerns this actor alone. -/
theorem separate_executors : executors.Separate part where
  apart := by
    intro id other t t' acts foreign
    obtain ⟨d, f, subject, kept, rfl⟩ := exists_update_of_acts acts
    rw [part_update_of_ne kept foreign, part_note_of_ne (subject.trans_ne foreign.symm)]
  phase := fun same => congrArg (fun a => (a.map Actor.phase).getD .uninitialized) (congrArg Prod.fst same)
  construct := by
    intro id t t' same
    have noted := part_note_congr (d := .construct id) rfl same
    have actor : (t.note (.construct id)).actor? id = (t'.note (.construct id)).actor? id :=
      congrArg Prod.fst noted
    show (construct id t).1 = (construct id t').1 ∧
      part id (construct id t).2 = part id (construct id t').2
    unfold construct
    dsimp only
    rw [actor]
    rcases (t'.note (.construct id)).actor? id with _ | ⟨_, _, _ | n, _, _⟩
    · exact ⟨rfl, noted⟩
    · exact ⟨rfl, noted⟩
    · exact ⟨rfl, part_update_congr (fun _ => rfl) noted⟩
  prepare := by
    intro id t t' same
    have noted := part_note_congr (d := .prepare id) rfl same
    have actor : (t.note (.prepare id)).actor? id = (t'.note (.prepare id)).actor? id :=
      congrArg Prod.fst noted
    show (prepare id t).1 = (prepare id t').1 ∧ part id (prepare id t).2 = part id (prepare id t').2
    unfold prepare
    dsimp only
    rw [actor]
    rcases (t'.note (.prepare id)).actor? id with _ | ⟨_, _, _, _ | n, _⟩
    · exact ⟨rfl, part_update_congr (fun _ => rfl) noted⟩
    · exact ⟨rfl, part_update_congr (fun _ => rfl) noted⟩
    · exact ⟨rfl, part_update_congr (fun _ => rfl) noted⟩
  execute := by
    intro code budget id t t' same
    have noted := part_note_congr (d := .execute id code budget) rfl same
    have ready : phase id (t.note (.execute id code budget)) =
        phase id (t'.note (.execute id code budget)) :=
      congrArg (fun a => (a.map Actor.phase).getD .uninitialized) (congrArg Prod.fst noted)
    show (execute id code budget t).1 = (execute id code budget t').1 ∧
      part id (execute id code budget t).2 = part id (execute id code budget t').2
    unfold execute
    dsimp only
    rw [ready]
    split
    · exact ⟨rfl, part_update_congr (fun _ => rfl) noted⟩
    · exact ⟨rfl, noted⟩
  terminate := fun same => part_update_congr (fun _ => rfl) (part_note_congr rfl same)

end Bench.Troupe

namespace Runner

open Bench (Troupe)

/-- Where executors share nothing, the operations on other languages make no difference to a language:
without them, the replies to all other operations are the same but for the numbers of executors, and
its part of the world is the same. How long an execution takes is given with the operation. -/
theorem undisturbed_of_separate (separate : x.Separate part) (catalog : Catalog) (w : World)
    (id : String) (ops : List Operation) :
    let own := ops.filter fun o => !o.isForeign catalog id
    let all := (new catalog w).after x ops
    let alone := (new catalog w).after x own
    (∃ σ : Equiv.Perm ExecutorId, (new catalog w).replies x own =
      (((new catalog w).replies x ops).filter
        fun e => !e.1.isForeign catalog id).map fun e => (e.1, e.2.renumber σ)) ∧
    part id alone.world = part id all.world ∧
    (alone.slot id).executor.isSome = (all.slot id).executor.isSome := by
  intro own all alone
  have start : Alike catalog part id (new catalog w) (new catalog w) :=
    ⟨rfl, rfl, isSettled_new, isSettled_new, rfl, rfl⟩
  obtain ⟨alike, σ, -, replies⟩ := start.run separate ops
  exact ⟨⟨σ, replies⟩, alike.part, alike.made⟩

/-- So it is for the executors of a troupe: what is done with the one of a language is the same, and
this is left in the same state. -/
theorem undisturbed (catalog : Catalog) (troupe : Troupe) (id : String) (ops : List Operation) :
    let own := ops.filter fun o => !o.isForeign catalog id
    let all := (new catalog troupe).after Troupe.executors ops
    let alone := (new catalog troupe).after Troupe.executors own
    (∃ σ : Equiv.Perm ExecutorId, (new catalog troupe).replies Troupe.executors own =
      (((new catalog troupe).replies Troupe.executors ops).filter
        fun e => !e.1.isForeign catalog id).map fun e => (e.1, e.2.renumber σ)) ∧
    alone.world.deedsOf id = all.world.deedsOf id ∧
    alone.world.actor? id = all.world.actor? id ∧
    (alone.slot id).executor.isSome = (all.slot id).executor.isSome := by
  intro own all alone
  obtain ⟨replies, part, made⟩ :=
    undisturbed_of_separate Bench.Troupe.separate_executors catalog troupe id ops
  exact ⟨replies, congrArg Prod.snd part, congrArg Prod.fst part, made⟩

end Runner

end SnippetRunner
