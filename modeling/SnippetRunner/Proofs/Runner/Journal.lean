import SnippetRunner.Proofs.Runner.Order

/-!
# The journal of a runner

Whatever is asked of a runner, and whatever fails on the way, what it does with the executors of its
languages is in order. An execution passes its stages one after the other: the budget, the language,
its executor and the preparation of that. The first stage that fails decides what is returned.
-/

namespace SnippetRunner

/-- An identifier addresses a language of the catalog. -/
theorem Catalog.mem_of_find? {catalog : Catalog} {identifier : String} {l : Language}
    (known : catalog.find? identifier = some l) : l ∈ catalog.languages :=
  List.mem_of_find?_eq_some known

namespace Runner

variable {World : Type} {x : Executors World} {catalog : Catalog} {valid : World → Prop}
  {identifier code : String} {budget : Option Budget} {elapsed : Span} {past deeds : List Deed}

/-! ## Stages -/

/-- The executor of a language is made, if that is still to be done. -/
def Making (past : List Deed) (id : String) (deeds : List Deed) : Prop :=
  (Made past id ∧ deeds = []) ∨ (¬Made past id ∧ deeds = [.construct id (.ok ())])

/-- There is something to execute, in a language of the catalog and under a valid budget. -/
structure Admitted (catalog : Catalog) (identifier code : String) (budget : Option Budget)
    (l : Language) : Prop where
  visible : ∃ c ∈ code.toList, Text.isBlank c = false
  valid : ∀ b ∈ budget, b.validate = .ok ()
  known : catalog.find? identifier = some l

/-- What an execution does and what it returns, by the stages that it passes: the budget, the
language, the executor and its preparation. -/
inductive Staged (catalog : Catalog) (past : List Deed) (identifier code : String)
    (budget : Option Budget) (elapsed : Span) : List Deed → Except Failure Report → Prop where
  /-- Blanks are nothing to execute, whatever the budget. -/
  | blank {l : Language} (blank : ∀ c ∈ code.toList, Text.isBlank c = true)
      (known : catalog.find? identifier = some l) :
      Staged catalog past identifier code budget elapsed [] (.ok .empty)
  | blankUnknown (blank : ∀ c ∈ code.toList, Text.isBlank c = true)
      (unknown : catalog.find? identifier = none) :
      Staged catalog past identifier code budget elapsed [] (.error (.unsupportedLanguage identifier))
  | refused {b : Budget} {f : Failure} (visible : ∃ c ∈ code.toList, Text.isBlank c = false)
      (given : b ∈ budget) (invalid : b.validate = .error f) :
      Staged catalog past identifier code budget elapsed [] (.error f)
  | unknown (visible : ∃ c ∈ code.toList, Text.isBlank c = false)
      (valid : ∀ b ∈ budget, b.validate = .ok ()) (unknown : catalog.find? identifier = none) :
      Staged catalog past identifier code budget elapsed [] (.error (.unsupportedLanguage identifier))
  | unmade {l : Language} {f : Failure} (admitted : Admitted catalog identifier code budget l)
      (first : ¬Made past l.id) :
      Staged catalog past identifier code budget elapsed [.construct l.id (.error f)] (.error f)
  | unprepared {l : Language} {f : Failure} {making : List Deed}
      (admitted : Admitted catalog identifier code budget l) (made : Making past l.id making) :
      Staged catalog past identifier code budget elapsed (making ++ [.prepare l.id (.error f)])
        (.error f)
  /-- Everything has succeeded up to the execution, and what comes of that is returned, with the time
  that it has taken. -/
  | executed {l : Language} {making preparing : List Deed} (left : Adapter.Phase)
      {result : Except Failure Report} (admitted : Admitted catalog identifier code budget l)
      (made : Making past l.id making)
      (prepared : preparing = [] ∨ preparing = [.prepare l.id (.ok ())])
      (served : ∀ language, result ≠ .error (.notInitialized language)) :
      Staged catalog past identifier code budget elapsed
        (making ++ preparing ++ [.execute l.id code budget .ready left result])
        (result.map fun q => q.taking elapsed)

theorem exists_visible (visible : Text.allBlank code = false) :
    ∃ c ∈ code.toList, Text.isBlank c = false := by
  simpa using List.all_eq_false.1 visible

/-- An execution never comes to an executor that is still to be made ready. -/
theorem Staged.ne_notInitialized {reply : Except Failure Report} {language : String}
    (staged : Staged catalog past identifier code budget elapsed deeds reply)
    (constructed : ∀ id, .construct id (.error (.notInitialized language)) ∉ deeds)
    (prepared : ∀ id, .prepare id (.error (.notInitialized language)) ∉ deeds) :
    reply ≠ .error (.notInitialized language) := by
  intro same
  cases staged with
  | blank => cases same
  | blankUnknown | unknown => cases same
  | refused visible given invalid =>
    obtain ⟨reason, rfl⟩ := Budget.invalidOptions_of_validate invalid
    cases same
  | unmade =>
    cases same
    exact constructed _ (List.mem_singleton_self _)
  | unprepared =>
    cases same
    exact prepared _ (List.mem_append_right _ (List.mem_singleton_self _))
  | @executed l making preparing left result admitted made prepared served =>
    cases result with
    | ok q => cases same
    | error f => exact served language same

/-! ## Operations -/

variable {l : Language} {w : World} {r : Runner (World × List Deed)}

/-- How a recorded runner has come to the executor of a language. -/
inductive Found (x : Executors World) (catalog : Catalog) (valid : World → Prop)
    (past : List Deed) (identifier : String) :
    Except Failure (Language × ExecutorId) × Runner (World × List Deed) → Prop where
  | unknown {r : Runner (World × List Deed)} (unknown : catalog.find? identifier = none)
      (next : InOrder x catalog valid r) (journal : r.world.2 = past) :
      Found x catalog valid past identifier (.error (.unsupportedLanguage identifier), r)
  | failed {l : Language} {f : Failure} {r : Runner (World × List Deed)}
      (known : catalog.find? identifier = some l) (first : ¬Made past l.id)
      (next : InOrder x catalog valid r)
      (journal : r.world.2 = past ++ [.construct l.id (.error f)]) :
      Found x catalog valid past identifier (.error f, r)
  | found {l : Language} {e : ExecutorId} {r : Runner (World × List Deed)} {making : List Deed}
      (known : catalog.find? identifier = some l) (made : Making past l.id making)
      (kept : Made r.world.2 l.id) (next : InOrder x catalog valid r)
      (journal : r.world.2 = past ++ making) :
      Found x catalog valid past identifier (.ok (l, e), r)

/-- How a recorded runner has had code executed by an executor that has been made. -/
inductive Served (x : Executors World) (catalog : Catalog) (valid : World → Prop)
    (past : List Deed) (id code : String) (budget : Option Budget) (elapsed : Span) :
    Except Failure Report × Runner (World × List Deed) → Prop where
  | unprepared {f : Failure} {r : Runner (World × List Deed)} (next : InOrder x catalog valid r)
      (journal : r.world.2 = past ++ [.prepare id (.error f)]) :
      Served x catalog valid past id code budget elapsed (.error f, r)
  | executed {r : Runner (World × List Deed)} {preparing : List Deed} (left : Adapter.Phase)
      {result : Except Failure Report}
      (prepared : preparing = [] ∨ preparing = [.prepare id (.ok ())])
      (served : ∀ language, result ≠ .error (.notInitialized language))
      (next : InOrder x catalog valid r)
      (journal : r.world.2 = past ++ preparing ++ [.execute id code budget .ready left result]) :
      Served x catalog valid past id code budget elapsed (result.map fun q => q.taking elapsed, r)

namespace InOrder

variable (h : InOrder x catalog valid r) (lawful : x.Lawful catalog valid)

include h lawful

/-- An executor that is ready executes code. -/
theorem executed (known : l ∈ catalog.languages) (kept : Made r.world.2 l.id)
    (ready : x.phase l.id r.world.1 = .ready) {past preparing : List Deed}
    (prepared : preparing = [] ∨ preparing = [.prepare l.id (.ok ())])
    (journal : r.world.2 = past ++ preparing) :
    Served x catalog valid past l.id code budget elapsed
      ((x.recorded.execute l.id code budget r.world).1.map fun q => q.taking elapsed,
        { r with world := (x.recorded.execute l.id code budget r.world).2 }) := by
  have recorded : (x.recorded.execute l.id code budget r.world).2.2 = r.world.2 ++
      [.execute l.id code budget (x.phase l.id r.world.1)
        (x.phase l.id (x.execute l.id code budget r.world.1).2)
        (x.execute l.id code budget r.world.1).1] := rfl
  rw [ready, journal] at recorded
  exact .executed _ prepared (fun _ => (lawful l known).execute h.valid ready)
    (h.execute lawful known kept ready) recorded

/-- An executor that has been made is ready, or is made ready, or this fails. -/
theorem serve (known : l ∈ catalog.languages) (kept : Made r.world.2 l.id) (code : String)
    (budget : Option Budget) (elapsed : Span) :
    Served x catalog valid r.world.2 l.id code budget elapsed
      (r.serve x.recorded l.id code budget elapsed) := by
  unfold Runner.serve
  by_cases ready : x.recorded.phase l.id r.world = .ready
  · rw [if_pos ready]
    exact h.executed lawful known kept ready (.inl rfl) (List.append_nil _).symm
  · rw [if_neg ready]
    have next := h.prepare lawful known kept
    have journal : (x.recorded.prepare l.id r.world).2.2 =
        r.world.2 ++ [.prepare l.id (x.recorded.prepare l.id r.world).1] := rfl
    rcases outcome : x.recorded.prepare l.id r.world with ⟨f | ⟨⟩, t⟩
    · rw [outcome] at next journal
      exact .unprepared next journal
    · have ready : x.phase l.id (x.recorded.prepare l.id r.world).2.1 = .ready :=
        (lawful l known).prepare h.valid (congrArg Prod.fst outcome)
      rw [outcome] at next journal ready
      have kept : Made t.2 l.id := by
        rw [journal]
        exact made_snoc.2 (.inl kept)
      exact next.executed lawful known kept ready (.inr rfl) journal

/-- The executor of a language is made, or the attempt fails; its slot tells which. -/
theorem resolve (identifier : String) :
    Found x catalog valid r.world.2 identifier (r.resolve x.recorded identifier) := by
  have way : Resolution x.recorded r identifier (r.resolve x.recorded identifier) :=
    h.settled.resolution
  generalize r.resolve x.recorded identifier = p at way
  cases way with
  | unknown unknown =>
    rw [h.serves] at unknown
    exact .unknown unknown h rfl
  | @there l e known there =>
    rw [h.serves] at known
    have made := h.made_of_slot there
    exact .found known (.inl ⟨made, rfl⟩) made h (List.append_nil _).symm
  | @failed l f w known missing failed =>
    rw [h.serves] at known
    obtain ⟨error, rfl⟩ := Prod.mk.inj failed
    -- the maker has left the line, so the slot is as empty as before
    have next := h.construct (s := .empty) (n := r.made) lawful (Catalog.mem_of_find? known) missing rfl rfl
      (by rw [error]; exact ⟨nofun, nofun⟩)
    refine .failed known (h.not_made_of_slot missing) next ?_
    show r.world.2 ++ [.construct l.id (x.construct l.id r.world.1).1] = _
    rw [error]
  | @made l w known missing made =>
    rw [h.serves] at known
    obtain ⟨ok, rfl⟩ := Prod.mk.inj made
    have next := h.construct (s := ⟨some r.made, none, []⟩) (n := r.made + 1) lawful
      (Catalog.mem_of_find? known) missing rfl rfl (by rw [ok]; exact ⟨fun _ => rfl, fun _ => rfl⟩)
    have journal : r.world.2 ++ [.construct l.id (x.construct l.id r.world.1).1] =
        r.world.2 ++ [.construct l.id (.ok ())] := by
      rw [ok]
    refine .found known (.inr ⟨h.not_made_of_slot missing, rfl⟩) ?_ next journal
    show Made (r.world.2 ++ [.construct l.id (x.construct l.id r.world.1).1]) l.id
    rw [journal]
    exact made_snoc.2 (.inr rfl)

/-- Code that is to be executed goes to the executor of its language, if there is one. -/
theorem staged_of_visible (visible : Text.allBlank code = false)
    (usable : ∀ b ∈ budget, b.validate = .ok ()) (identifier : String) :
    ∃ deeds, (r.execute x.recorded identifier code budget elapsed).2.world.2 = r.world.2 ++ deeds ∧
      Staged catalog r.world.2 identifier code budget elapsed deeds
        (r.execute x.recorded identifier code budget elapsed).1 ∧
      InOrder x catalog valid (r.execute x.recorded identifier code budget elapsed).2 := by
  rw [execute_of_visible visible usable]
  have visible := exists_visible visible
  have way := h.resolve lawful identifier
  generalize r.resolve x.recorded identifier = p at way
  cases way with
  | unknown unknown next journal =>
    exact ⟨[], by rw [journal, List.append_nil], .unknown visible usable unknown, next⟩
  | failed known first next journal =>
    exact ⟨_, journal, .unmade ⟨visible, usable, known⟩ first, next⟩
  | @found l e r' making known made kept next journal =>
    have admitted : Admitted catalog identifier code budget l := ⟨visible, usable, known⟩
    have way := next.serve lawful (Catalog.mem_of_find? known) kept code budget elapsed
    show ∃ deeds, (r'.serve x.recorded l.id code budget elapsed).2.world.2 = _ ∧
      Staged _ _ _ _ _ _ deeds (r'.serve x.recorded l.id code budget elapsed).1 ∧
      InOrder x catalog valid (r'.serve x.recorded l.id code budget elapsed).2
    generalize r'.serve x.recorded l.id code budget elapsed = p at way
    cases way with
    | unprepared next journal' =>
      refine ⟨_, ?_, .unprepared admitted made, next⟩
      rw [journal', journal, List.append_assoc]
    | executed left prepared served next journal' =>
      refine ⟨_, ?_, .executed left admitted made prepared served, next⟩
      rw [journal', journal]
      simp only [List.append_assoc]

/-- An execution goes from stage to stage. -/
theorem staged (identifier code : String) (budget : Option Budget) (elapsed : Span) :
    ∃ deeds, (r.execute x.recorded identifier code budget elapsed).2.world.2 = r.world.2 ++ deeds ∧
      Staged catalog r.world.2 identifier code budget elapsed deeds
        (r.execute x.recorded identifier code budget elapsed).1 ∧
      InOrder x catalog valid (r.execute x.recorded identifier code budget elapsed).2 := by
  cases blank : Text.allBlank code with
  | true =>
    rw [execute_of_blank blank]
    have blank : ∀ c ∈ code.toList, Text.isBlank c = true := List.all_eq_true.1 blank
    refine ⟨[], (List.append_nil _).symm, ?_, h⟩
    unfold Catalog.find
    rw [h.serves]
    cases known : catalog.find? identifier with
    | none => exact .blankUnknown blank known
    | some l => exact .blank blank known
  | false =>
    cases budget with
    | none => exact h.staged_of_visible lawful blank (by simp) identifier
    | some b =>
      cases usable : b.validate with
      | ok u => exact h.staged_of_visible lawful blank (by simpa using usable) identifier
      | error f =>
        rw [execute_of_invalid blank usable]
        exact ⟨[], (List.append_nil _).symm, .refused (exists_visible blank) rfl usable, h⟩

theorem prewarm : InOrder x catalog valid (r.prewarm x.recorded identifier).2 := by
  unfold Runner.prewarm
  have way := h.resolve lawful identifier
  generalize r.resolve x.recorded identifier = p at way
  cases way with
  | unknown _ next => exact next
  | failed _ _ next => exact next
  | found known _ kept next => exact next.prepare lawful (Catalog.mem_of_find? known) kept

theorem terminateOne : InOrder x catalog valid (r.terminate x.recorded identifier).2 := by
  cases known : r.catalog.find? identifier with
  | none =>
    rw [terminate_of_unknown known]
    exact h
  | some l =>
    rw [terminate_of_known known]
    rw [h.serves] at known
    show InOrder x catalog valid (if (r.slot l.id).executor.isSome then _ else r)
    split
    · next there => exact h.terminate lawful (Catalog.mem_of_find? known) ((h.slots l.id).1 there)
    · exact h

theorem terminateAll : InOrder x catalog valid (r.terminateAll x.recorded) := by
  -- on the way the journal only grows, so what is still to be terminated remains made
  have each : ∀ (ls : List Language) (t : World × List Deed),
      (∀ l ∈ ls, l ∈ catalog.languages ∧ Made t.2 l.id) → InOrder x catalog valid { r with world := t } →
      InOrder x catalog valid
        { r with world := ls.foldl (fun t l => x.recorded.terminate l.id t) t } := by
    intro ls
    induction ls with
    | nil => exact fun _ _ h => h
    | cons l ls ih =>
      intro t all h
      obtain ⟨known, kept⟩ := all l (List.mem_cons_self ..)
      refine ih _ (fun k hk => ?_) (h.terminate lawful known kept)
      obtain ⟨known, kept⟩ := all k (List.mem_cons_of_mem _ hk)
      exact ⟨known, made_snoc.2 (.inl kept)⟩
  refine each _ r.world (fun l hl => ?_) h
  obtain ⟨known, there⟩ := List.mem_filter.1 hl
  rw [h.serves] at known
  exact ⟨known, (h.slots l.id).1 there⟩

/-- An operation leaves things in order. -/
theorem perform {o : Operation} : InOrder x catalog valid (r.perform x.recorded o).2 := by
  cases o with
  | execute identifier code budget elapsed =>
    obtain ⟨-, -, -, next⟩ := h.staged lawful identifier code budget elapsed
    exact next
  | prewarm identifier => exact h.prewarm lawful
  | resolve identifier =>
    have way := h.resolve lawful identifier
    show InOrder x catalog valid (r.resolve x.recorded identifier).2
    generalize r.resolve x.recorded identifier = p at way
    cases way with
    | unknown _ next => exact next
    | failed _ _ next => exact next
    | found _ _ _ next => exact next
  | terminate identifier => exact h.terminateOne lawful
  | terminateAll => exact h.terminateAll lawful

/-- Operations one after the other leave things in order. -/
theorem after {ops : List Operation} : InOrder x catalog valid (r.after x.recorded ops) := by
  induction ops generalizing r with
  | nil => exact h
  | cons o ops ih => exact ih (h.perform lawful)

end InOrder

/-- Whatever has been asked of a runner, the journal is in order; and the next execution, of any code in
any language, passes its stages and returns what the first of them that fails says, or what has come
of the execution. That an executor has to be prepared first is returned only where the executor says so
of its making or of its preparation. -/
theorem orderly_and_staged (lawful : x.Lawful catalog valid) (start : valid w)
    (fresh : ∀ l ∈ catalog.languages, x.phase l.id w ≠ .ready) (ops : List Operation) :
    Orderly (x.journal catalog w ops) ∧
    ∀ identifier code budget elapsed, ∃ deeds reply,
      reply = (((new catalog w).after x ops).execute x identifier code budget elapsed).1 ∧
      x.journal catalog w (ops ++ [.execute identifier code budget elapsed]) =
        x.journal catalog w ops ++ deeds ∧
      Staged catalog (x.journal catalog w ops) identifier code budget elapsed deeds reply ∧
      ∀ language, (∀ id, .construct id (.error (.notInitialized language)) ∉ deeds ∧
        .prepare id (.error (.notInitialized language)) ∉ deeds) →
        reply ≠ .error (.notInitialized language) := by
  have h : InOrder x catalog valid ((new catalog (w, [])).after x.recorded ops) :=
    (inOrder_new start fresh).after lawful
  refine ⟨h.orderly, fun identifier code budget elapsed => ?_⟩
  obtain ⟨deeds, journal, staged, -⟩ := h.staged lawful identifier code budget elapsed
  refine ⟨deeds, _, ?_, ?_, staged, fun language elsewhere => staged.ne_notInitialized
    (fun id => (elsewhere id).1) fun id => (elsewhere id).2⟩
  · have plain : (new catalog w).after x ops =
        ((new catalog (w, [])).after x.recorded ops).unrecorded := after_unrecorded (r := new catalog (w, []))
    rw [plain, execute_unrecorded]
  · unfold Executors.journal Runner.after
    rw [List.foldl_append]
    exact journal

/-- Two languages. -/
def pair : Catalog := ⟨[⟨"one", ["uno"], []⟩, ⟨"two", [], ["tw"]⟩]⟩

/-- Their executors: one cannot be made nor prepared at first, and the other is lost in each execution. -/
def duo : Bench.Troupe :=
  ⟨[⟨"one", .uninitialized, 1, 1, false⟩, ⟨"two", .uninitialized, 0, 0, true⟩], []⟩

/-- Everything fails that can, both executors are lost and terminated, and blanks are executed. -/
def errands : List Operation :=
  [.execute "uno" "a" none .zero, .execute "one" "a" none .zero, .terminate "two",
    .execute "one" "a" none (.ofMillis 3), .prewarm "TW", .execute ".tw" "b" none (.ofMillis 1),
    .execute "two" "\u00a0" (some ⟨.zero, 0, 0⟩) .zero, .execute "two" "b" none (.ofMillis 5),
    .terminateAll, .resolve "one"]

/-- Each failure is met once and tried again, and the last execution begins with a preparation. -/
theorem orderly_and_staged_duo :
    Bench.Troupe.executors.Lawful pair (Bench.Troupe.Casts pair) ∧
    Bench.Troupe.Casts pair duo ∧
    (∀ l ∈ pair.languages, Bench.Troupe.executors.phase l.id duo ≠ .ready) ∧
    Bench.Troupe.executors.journal pair duo (errands ++ [.execute "one" "a" none (.ofMillis 2)]) =
      [.construct "one" (.error (.initialization "one" "construct")),
        .construct "one" (.ok ()), .prepare "one" (.error (.initialization "one" "0 left")),
        .prepare "one" (.ok ()),
        .execute "one" "a" none .ready .ready (.ok (Bench.Actor.perform "a" .standard)),
        .construct "two" (.ok ()), .prepare "two" (.ok ()),
        .execute "two" "b" none .ready .uninitialized (.ok (Bench.Actor.perform "b" .standard)),
        .prepare "two" (.ok ()),
        .execute "two" "b" none .ready .uninitialized (.ok (Bench.Actor.perform "b" .standard)),
        .terminate "one", .terminate "two", .prepare "one" (.ok ()),
        .execute "one" "a" none .ready .ready (.ok (Bench.Actor.perform "a" .standard))] ∧
    Orderly (Bench.Troupe.executors.journal pair duo errands) ∧
    ∃ deeds reply,
      reply = (((new pair duo).after Bench.Troupe.executors errands).execute Bench.Troupe.executors
        "one" "a" none (.ofMillis 2)).1 ∧
      Bench.Troupe.executors.journal pair duo (errands ++ [.execute "one" "a" none (.ofMillis 2)]) =
        Bench.Troupe.executors.journal pair duo errands ++ deeds ∧
      Staged pair (Bench.Troupe.executors.journal pair duo errands) "one" "a" none (.ofMillis 2) deeds
        reply ∧
      ∀ language, (∀ id, .construct id (.error (.notInitialized language)) ∉ deeds ∧
        .prepare id (.error (.notInitialized language)) ∉ deeds) →
        reply ≠ .error (.notInitialized language) := by
  have lawful := Bench.Troupe.lawful_executors pair
  have casts : Bench.Troupe.Casts pair duo := by
    unfold Bench.Troupe.Casts
    decide
  have fresh : ∀ l ∈ pair.languages, Bench.Troupe.executors.phase l.id duo ≠ .ready := by
    decide
  obtain ⟨orderly, next⟩ := orderly_and_staged lawful casts fresh errands
  exact ⟨lawful, casts, fresh, rfl, orderly, next "one" "a" none (.ofMillis 2)⟩

end Runner

end SnippetRunner
