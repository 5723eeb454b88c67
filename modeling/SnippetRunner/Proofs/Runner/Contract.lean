import SnippetRunner.Bench.Troupe

/-!
# The contract of executors

What a runner relies on when it makes an executor, prepares it, has it execute code and terminates it.
The executors of a troupe keep to it, however often they are told to fail and to crash.
-/

namespace SnippetRunner

variable {World : Type}

/-- Something done with the executor of a language makes the second world of the first. -/
inductive Executors.Acts (x : Executors World) (id : String) (w : World) : World → Prop where
  | construct : x.Acts id w (x.construct id w).2
  | prepare : x.Acts id w (x.prepare id w).2
  | execute (code : String) (budget : Option Budget) : x.Acts id w (x.execute id code budget w).2
  | terminate : x.Acts id w (x.terminate id w)

/-- What the executor of a language has to keep to, in the worlds that there can be. How often making
and preparing it fails is up to it, and so is whether it is lost in an execution. -/
structure Executors.Keeps (x : Executors World) (valid : World → Prop) (id : String) : Prop where
  stays {w w' : World} : valid w → x.Acts id w w' → valid w'
  /-- What is done with this executor leaves the others as they are. -/
  apart {w w' : World} {other : String} : valid w → x.Acts id w w' → other ≠ id →
    x.phase other w' = x.phase other w
  /-- Making it does not make it ready. -/
  construct {w : World} : valid w → x.phase id (x.construct id w).2 = .ready → x.phase id w = .ready
  prepare {w : World} : valid w → (x.prepare id w).1 = .ok () → x.phase id (x.prepare id w).2 = .ready
  /-- A failure does not make it ready. -/
  unprepared {w : World} : valid w → (x.prepare id w).1 ≠ .ok () →
    x.phase id (x.prepare id w).2 = .ready → x.phase id w = .ready
  /-- It does not ask for being prepared when it is ready. -/
  execute {w : World} {code language : String} {budget : Option Budget} : valid w →
    x.phase id w = .ready → (x.execute id code budget w).1 ≠ .error (.notInitialized language)
  terminate {w : World} : valid w → x.phase id (x.terminate id w) ≠ .ready

/-- All executors of the languages of a catalog keep to this. -/
def Executors.Lawful (x : Executors World) (catalog : Catalog) (valid : World → Prop) : Prop :=
  ∀ l ∈ catalog.languages, x.Keeps valid l.id

/-- The language of the executor that something was done with. -/
def Bench.Deed.subject : Deed → String
  | .construct id | .prepare id | .execute id .. | .terminate id => id

namespace Bench.Troupe

variable {t t' : Troupe} {id k code : String} {budget : Option Budget} {f : Actor → Actor} {a : Actor}

/-! ## Actors -/

theorem id_of_actor? (found : t.actor? id = some a) : a.id = id := by
  have matched := List.find?_some found
  exact beq_iff_eq.1 matched

theorem actor?_update (kept : ∀ a, (f a).id = a.id) :
    (t.update id f).actor? k = (t.actor? k).map fun a => if a.id = id then f a else a := by
  unfold actor? update
  rw [List.find?_map]
  have same : (fun a : Actor => a.id == k) ∘ (fun a => if a.id = id then f a else a) =
      fun a => a.id == k := by
    funext a
    show ((if a.id = id then f a else a).id == k) = (a.id == k)
    split
    · rw [kept]
    · rfl
  rw [same]

theorem phase_update_self (kept : ∀ a, (f a).id = a.id) (found : t.actor? id = some a) :
    phase id (t.update id f) = (f a).phase := by
  unfold phase
  rw [actor?_update kept, found, Option.map_some, if_pos (id_of_actor? found)]
  rfl

theorem phase_update_of_ne (kept : ∀ a, (f a).id = a.id) (other : k ≠ id) :
    phase k (t.update id f) = phase k t := by
  unfold phase
  rw [actor?_update kept, Option.map_map]
  cases found : t.actor? k with
  | none => rfl
  | some a =>
    have away : a.id ≠ id := fun e => other ((id_of_actor? found).symm.trans e)
    simp only [Option.map_some, Function.comp_apply, if_neg away]

theorem phase_update_of_same (kept : ∀ a, (f a).id = a.id) (same : ∀ a, (f a).phase = a.phase) :
    phase k (t.update id f) = phase k t := by
  unfold phase
  rw [actor?_update kept, Option.map_map]
  refine congrArg (fun p => (Option.map p (t.actor? k)).getD _) (funext fun a => ?_)
  show (if a.id = id then f a else a).phase = a.phase
  split
  · exact same a
  · rfl

/-! ## Actions -/

/-- Everything that is done with an actor is noted down, and changes this actor alone. -/
theorem exists_update_of_acts (acts : executors.Acts id t t') :
    ∃ d f, d.subject = id ∧ (∀ a, (f a).id = a.id) ∧ t' = (t.note d).update id f := by
  -- an actor that is only noted down is changed by nothing
  have still : ∀ d, t.note d = (t.note d).update id fun a => a := by
    intro d
    unfold update
    simp only [ite_self, List.map_id']
  cases acts with
  | construct =>
    show ∃ d f, _ ∧ _ ∧ (construct id t).2 = _
    unfold construct
    dsimp only
    split
    · refine ⟨_, _, rfl, ?_, rfl⟩
      exact fun _ => rfl
    · exact ⟨_, _, rfl, fun _ => rfl, still _⟩
  | prepare =>
    show ∃ d f, _ ∧ _ ∧ (prepare id t).2 = _
    unfold prepare
    dsimp only
    split
    · refine ⟨_, _, rfl, ?_, rfl⟩
      exact fun _ => rfl
    · refine ⟨_, _, rfl, ?_, rfl⟩
      exact fun _ => rfl
  | execute code budget =>
    show ∃ d f, _ ∧ _ ∧ (execute id code budget t).2 = _
    unfold execute
    dsimp only
    split
    · refine ⟨_, _, rfl, ?_, rfl⟩
      exact fun _ => rfl
    · exact ⟨_, _, rfl, fun _ => rfl, still _⟩
  | terminate =>
    exact ⟨.terminate id, fun a => { a with phase := .uninitialized }, rfl, fun _ => rfl, rfl⟩

theorem phase_construct : phase id (construct id t).2 = phase id t := by
  unfold construct
  dsimp only
  split
  · exact phase_update_of_same (by intro a; rfl) (by intro a; rfl)
  · rfl

/-- Preparing an actor fails and changes nothing about it, or makes it ready. -/
theorem phase_prepare (cast : (t.actor? id).isSome = true) :
    (∃ e, (prepare id t).1 = .error e ∧ phase id (prepare id t).2 = phase id t) ∨
      ((prepare id t).1 = .ok () ∧ phase id (prepare id t).2 = .ready) := by
  obtain ⟨a, found⟩ := Option.isSome_iff_exists.1 cast
  have noted : (t.note (.prepare id)).actor? id = some a := found
  unfold prepare
  dsimp only
  split
  · exact .inl ⟨_, rfl, phase_update_of_same (by intro a; rfl) (by intro a; rfl)⟩
  · exact .inr ⟨rfl, phase_update_self (by intro a; rfl) noted⟩

theorem execute_of_ready (ready : phase id t = .ready) :
    (execute id code budget t).1 = .ok (Actor.perform code (budget.getD .standard)) := by
  have ready' : phase id (t.note (.execute id code budget)) = .ready := ready
  unfold execute
  dsimp only
  rw [if_pos ready']

theorem phase_terminate (cast : (t.actor? id).isSome = true) :
    phase id (terminate id t) = .uninitialized := by
  obtain ⟨a, found⟩ := Option.isSome_iff_exists.1 cast
  exact phase_update_self (fun _ => rfl) found

/-- There is an actor for each language of a catalog. -/
def Casts (catalog : Catalog) (t : Troupe) : Prop :=
  ∀ l ∈ catalog.languages, (t.actor? l.id).isSome = true

theorem lawful_executors (catalog : Catalog) : executors.Lawful catalog (Casts catalog) := by
  intro l known
  exact {
    stays := fun {t t'} casts acts k hk => by
      obtain ⟨d, f, -, kept, rfl⟩ := exists_update_of_acts acts
      rw [actor?_update kept, Option.isSome_map]
      exact casts k hk
    apart := fun {t t'} k casts acts other => by
      obtain ⟨d, f, -, kept, rfl⟩ := exists_update_of_acts acts
      exact phase_update_of_ne kept other
    construct := fun _ ready => phase_construct.symm.trans ready
    prepare := fun casts ok => by
      rcases phase_prepare (casts l known) with ⟨e, failed, -⟩ | ⟨-, ready⟩
      · exact absurd (failed.symm.trans ok) nofun
      · exact ready
    unprepared := fun casts failed ready => by
      rcases phase_prepare (casts l known) with ⟨e, -, same⟩ | ⟨ok, -⟩
      · exact same.symm.trans ready
      · exact absurd ok failed
    execute := fun _ ready e => by
      rw [show (executors.execute l.id _ _ _).1 = _ from execute_of_ready ready] at e
      cases e
    terminate := fun casts ready => by
      rw [show executors.phase l.id (executors.terminate l.id _) = _ from
        phase_terminate (casts l known)] at ready
      cases ready }

end Bench.Troupe

end SnippetRunner
