import SnippetRunner.Runner.Journal

/-!
# Runners that are asked one thing after the other

Between two operations nobody is making an executor and nobody waits for one. A runner in that state
comes to the executor of a language in one of four ways. A journal does not change what a runner
does: without it, the recorded run is the plain one.
-/

namespace SnippetRunner.Runner

variable {World : Type} {x : Executors World} {r : Runner World} {id identifier code : String}
  {budget : Option Budget} {elapsed : Span} {s : Slot}

/-! ## Slots -/

theorem slot_setSlot_self : (r.setSlot id s).slot id = s := by
  unfold slot setSlot
  rw [List.find?_append, List.find?_eq_none.2 fun e he => by simpa using (List.mem_filter.1 he).2]
  simp

theorem slot_setSlot_of_ne {k : String} (other : k ≠ id) : (r.setSlot id s).slot k = r.slot k := by
  unfold slot setSlot
  have skipped : [(id, s)].find? (fun e => e.1 == k) = none := by
    simp [other.symm]
  have kept : ((r.slots.filter fun e => e.1 != id).find? fun e => e.1 == k) =
      r.slots.find? fun e => e.1 == k := by
    rw [List.find?_filter]
    refine congrArg (fun p => r.slots.find? p) (funext fun e => ?_)
    by_cases he : e.1 = k
    · simp [he, other]
    · simp [he]
  rw [List.find?_append, skipped, Option.or_none, kept]

/-- Nobody is making an executor, and nobody waits for one. -/
def IsSettled (r : Runner World) : Prop := ∀ id, (r.slot id).maker = none ∧ (r.slot id).queue = []

theorem isSettled_new {catalog : Catalog} {w : World} : (new catalog w).IsSettled :=
  fun _ => ⟨rfl, rfl⟩

theorem IsSettled.setSlot (h : r.IsSettled) (maker : s.maker = none) (queue : s.queue = []) :
    (r.setSlot id s).IsSettled := by
  intro k
  by_cases hk : k = id
  · rw [hk, slot_setSlot_self]
    exact ⟨maker, queue⟩
  · rw [slot_setSlot_of_ne hk]
    exact h k

/-! ## Resolving -/

/-- How the executor of a language is come by, with what is returned and the runner after it. -/
inductive Resolution (x : Executors World) (r : Runner World) (identifier : String) :
    Except Failure (Language × ExecutorId) × Runner World → Prop where
  | unknown (unknown : r.catalog.find? identifier = none) :
      Resolution x r identifier (.error (.unsupportedLanguage identifier), r)
  /-- It is there. -/
  | there {l : Language} {e : ExecutorId} (known : r.catalog.find? identifier = some l)
      (there : (r.slot l.id).executor = some e) : Resolution x r identifier (.ok (l, e), r)
  /-- It could not be made, and nothing is left of the attempt in its slot. -/
  | failed {l : Language} {f : Failure} {w : World} (known : r.catalog.find? identifier = some l)
      (missing : (r.slot l.id).executor = none) (failed : x.construct l.id r.world = (.error f, w)) :
      Resolution x r identifier (.error f, { r with world := w }.setSlot l.id .empty)
  /-- It has been made, and is kept from now on. -/
  | made {l : Language} {w : World} (known : r.catalog.find? identifier = some l)
      (missing : (r.slot l.id).executor = none) (made : x.construct l.id r.world = (.ok (), w)) :
      Resolution x r identifier (.ok (l, r.made),
        { r with world := w, made := r.made + 1 }.setSlot l.id ⟨some r.made, none, []⟩)

/-- Where nothing is under way, the executor of a language is come by in one of these ways. -/
theorem IsSettled.resolution (h : r.IsSettled) : Resolution x r identifier (r.resolve x identifier) := by
  unfold resolve Catalog.find
  cases known : r.catalog.find? identifier with
  | none => exact .unknown known
  | some l =>
    obtain ⟨maker, queue⟩ := h l.id
    cases there : (r.slot l.id).executor with
    | some e =>
      simp only [Slot.ask, there]
      exact .there known there
    | none =>
      -- the caller becomes the maker, and after a failure nobody is in line
      simp only [Slot.ask, there, maker, Option.isNone_none, if_true]
      rcases outcome : x.construct l.id r.world with ⟨f | ⟨⟩, w⟩
      · simp only [Slot.settle, queue, List.head?_nil, List.tail_nil]
        exact .failed known there outcome
      · exact .made known there outcome

/-! ## Executing -/

/-- The executor of a language executes code, and is prepared before that if it is not ready. -/
def serve (x : Executors World) (r : Runner World) (id code : String) (budget : Option Budget)
    (elapsed : Span) : Except Failure Report × Runner World :=
  match if x.phase id r.world = .ready then (.ok (), r.world) else x.prepare id r.world with
  | (.error f, w) => (.error f, { r with world := w })
  | (.ok (), w) =>
    ((x.execute id code budget w).1.map fun q => q.taking elapsed,
      { r with world := (x.execute id code budget w).2 })

/-- Blanks are not executed. -/
theorem execute_of_blank (blank : Text.allBlank code = true) :
    r.execute x identifier code budget elapsed =
      ((r.catalog.find identifier).map fun _ => .empty, r) := by
  unfold execute
  rw [blank, if_pos rfl]

theorem execute_of_invalid {b : Budget} {f : Failure} (visible : Text.allBlank code = false)
    (invalid : b.validate = .error f) :
    r.execute x identifier code (some b) elapsed = (.error f, r) := by
  unfold execute
  rw [visible, Option.elim_some, invalid]
  rfl

/-- Other code is for the executor of its language. -/
theorem execute_of_visible (visible : Text.allBlank code = false)
    (usable : ∀ b ∈ budget, b.validate = .ok ()) :
    r.execute x identifier code budget elapsed =
      match r.resolve x identifier with
      | (.error f, r) => (.error f, r)
      | (.ok (l, _), r) => r.serve x l.id code budget elapsed := by
  have usable : budget.elim (.ok ()) Budget.validate = .ok () := by
    cases budget with
    | none => rfl
    | some b => exact usable b rfl
  unfold execute
  simp only [visible, usable, Bool.false_eq_true, if_false]
  rcases r.resolve x identifier with ⟨f | ⟨l, e⟩, r⟩
  · rfl
  · simp only [serve]
    rcases (if x.phase l.id r.world = .ready then (.ok (), r.world) else x.prepare l.id r.world :
      Except Failure Unit × World) with ⟨f | ⟨⟩, w⟩ <;> rfl

/-! ## Terminating -/

/-- Only what has been made is terminated. -/
theorem terminate_of_known {l : Language} (known : r.catalog.find? identifier = some l) :
    r.terminate x identifier =
      (.ok (), if (r.slot l.id).executor.isSome then { r with world := x.terminate l.id r.world }
        else r) := by
  have loaded : r.loaded identifier = .ok (if (r.slot l.id).executor.isSome then some l else none) := by
    unfold loaded Catalog.find
    rw [known]
    rfl
  unfold terminate
  rw [loaded]
  cases (r.slot l.id).executor <;> rfl

theorem terminate_of_unknown (unknown : r.catalog.find? identifier = none) :
    r.terminate x identifier = (.error (.unsupportedLanguage identifier), r) := by
  unfold terminate loaded Catalog.find
  rw [unknown]
  rfl

/-! ## Recorded runs -/

section Recorded

/-- The runner without its journal. -/
def unrecorded (r : Runner (World × List Deed)) : Runner World :=
  ⟨r.catalog, r.slots, r.made, r.world.1⟩

variable {r : Runner (World × List Deed)}

@[simp] theorem unrecorded_catalog : r.unrecorded.catalog = r.catalog := rfl

@[simp] theorem unrecorded_world : r.unrecorded.world = r.world.1 := rfl

@[simp] theorem slot_unrecorded : r.unrecorded.slot id = r.slot id := rfl

variable {t : World × List Deed}

@[simp] theorem recorded_construct : x.recorded.construct id t =
    ((x.construct id t.1).1, (x.construct id t.1).2, t.2 ++ [.construct id (x.construct id t.1).1]) :=
  rfl

@[simp] theorem recorded_phase : x.recorded.phase id t = x.phase id t.1 := rfl

@[simp] theorem recorded_prepare : x.recorded.prepare id t =
    ((x.prepare id t.1).1, (x.prepare id t.1).2, t.2 ++ [.prepare id (x.prepare id t.1).1]) :=
  rfl

@[simp] theorem recorded_execute : x.recorded.execute id code budget t =
    ((x.execute id code budget t.1).1, (x.execute id code budget t.1).2,
      t.2 ++ [.execute id code budget (x.phase id t.1) (x.phase id (x.execute id code budget t.1).2)
        (x.execute id code budget t.1).1]) :=
  rfl

theorem resolve_unrecorded : r.unrecorded.resolve x identifier =
    ((r.resolve x.recorded identifier).1, (r.resolve x.recorded identifier).2.unrecorded) := by
  unfold resolve
  rw [unrecorded_catalog]
  cases r.catalog.find identifier with
  | error e => rfl
  | ok l =>
    simp only [slot_unrecorded, unrecorded_world]
    rcases (r.slot l.id).ask soleCaller with ⟨_ | e, slot⟩
    · simp only [recorded_construct]
      rcases x.construct l.id r.world.1 with ⟨f | ⟨⟩, w⟩ <;> rfl
    · rfl

theorem execute_unrecorded : r.unrecorded.execute x identifier code budget elapsed =
    ((r.execute x.recorded identifier code budget elapsed).1,
      (r.execute x.recorded identifier code budget elapsed).2.unrecorded) := by
  unfold execute
  rw [resolve_unrecorded]
  cases Text.allBlank code with
  | true => rfl
  | false =>
    cases budget.elim (.ok ()) Budget.validate with
    | error e => rfl
    | ok =>
      simp only [Bool.false_eq_true, if_false]
      rcases r.resolve x.recorded identifier with ⟨f | ⟨l, e⟩, r⟩
      · rfl
      · simp only [recorded_phase, recorded_prepare, recorded_execute, unrecorded_world]
        by_cases ready : x.phase l.id r.world.1 = .ready
        · simp only [ready, if_true]
          rfl
        · simp only [ready, if_false]
          rcases x.prepare l.id r.world.1 with ⟨f | ⟨⟩, w⟩ <;> rfl

theorem prewarm_unrecorded : r.unrecorded.prewarm x identifier =
    ((r.prewarm x.recorded identifier).1, (r.prewarm x.recorded identifier).2.unrecorded) := by
  unfold prewarm
  rw [resolve_unrecorded]
  rcases r.resolve x.recorded identifier with ⟨f | ⟨l, e⟩, r⟩ <;> rfl

theorem terminate_unrecorded : r.unrecorded.terminate x identifier =
    ((r.terminate x.recorded identifier).1, (r.terminate x.recorded identifier).2.unrecorded) := by
  have loaded : r.unrecorded.loaded identifier = r.loaded identifier := rfl
  unfold terminate
  rw [loaded]
  rcases r.loaded identifier with f | _ | l <;> rfl

theorem terminateAll_unrecorded : r.unrecorded.terminateAll x =
    (r.terminateAll x.recorded).unrecorded := by
  have worlds : ∀ (ls : List Language) (s : World × List Deed),
      (ls.foldl (fun s l => x.recorded.terminate l.id s) s).1 =
        ls.foldl (fun w l => x.terminate l.id w) s.1 := by
    intro ls
    induction ls with
    | nil => exact fun _ => rfl
    | cons l ls ih => exact fun s => ih (x.recorded.terminate l.id s)
  exact congrArg (Runner.mk r.catalog r.slots r.made) (worlds _ r.world).symm

/-- Without its journal, what is recorded of an operation is what is returned and done in it. -/
theorem perform_unrecorded {o : Operation} : r.unrecorded.perform x o =
    ((r.perform x.recorded o).1, (r.perform x.recorded o).2.unrecorded) := by
  cases o with
  | execute identifier code budget elapsed => simp only [perform, execute_unrecorded]
  | prewarm identifier => simp only [perform, prewarm_unrecorded]
  | resolve identifier => simp only [perform, resolve_unrecorded]
  | terminate identifier => simp only [perform, terminate_unrecorded]
  | terminateAll => simp only [perform, terminateAll_unrecorded]

/-- A recorded run is the plain one with a journal. -/
theorem after_unrecorded {ops : List Operation} :
    r.unrecorded.after x ops = (r.after x.recorded ops).unrecorded := by
  induction ops generalizing r with
  | nil => rfl
  | cons o ops ih =>
    calc r.unrecorded.after x (o :: ops)
      _ = (r.unrecorded.perform x o).2.after x ops := rfl
      _ = (r.perform x.recorded o).2.unrecorded.after x ops := by rw [perform_unrecorded]
      _ = ((r.perform x.recorded o).2.after x.recorded ops).unrecorded := ih

end Recorded

end SnippetRunner.Runner
