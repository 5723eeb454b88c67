import SnippetRunner.Proofs.Runner.Front
import SnippetRunner.Proofs.Runner.Sequence

/-!
# Calls one after the other

A runner that is asked one thing after the other comes to its executors by the same steps as calls side
by side: each call takes all of its steps before the next one asks.
-/

namespace SnippetRunner.Runner.Front

variable {σ : Type} {x : Cell σ} {s t : Front σ} {c : CallerId} {identifier : String} {k : Call}
  {l : Language}

/-- The maker of an executor comes to an end, and returns with what it has come to. -/
theorem finished (lawful : x.Lawful) (makes : s.call? c = some (.making l))
    (turn : x.maker (s.cell x l.id) = some c) (here : c ∈ x.callers (s.cell x l.id))
    (result : Except Failure Unit) :
    Traces x s [.ended c l (result.map fun _ => s.made),
      .returned c ((result.map fun _ => s.made).map fun e => (l, e))]
      ((s.settle x l result).leave c) := by
  have answered : (s.settle x l result).call? c =
      some (.answered ((result.map fun _ => s.made).map fun e => (l, e))) := by
    cases result with
    | error f =>
      rw [call?_settle_error lawful turn, if_pos rfl, makes]
      rfl
    | ok =>
      refine (call?_settle_ok lawful turn).trans ((if_pos here).trans ?_)
      rw [makes]
      rfl
  exact (Traces.one (step_finish makes result)).next (step_wake answered)

/-- A call that nobody comes between asks for an executor that is missing, makes it or fails, and
returns. -/
theorem attempt {s : Front Slot} (known : s.catalog.find identifier = .ok l)
    (missing : s.cell Slot.cell l.id = .empty) (result : Except Failure Unit) :
    ∃ t, Traces Slot.cell s [.asked s.asked identifier, .begun s.asked l,
      .ended s.asked l (result.map fun _ => s.made),
      .returned s.asked ((result.map fun _ => s.made).map fun e => (l, e))] t ∧
      t.catalog = s.catalog ∧ t.made = (if result.isOk then s.made + 1 else s.made) ∧
      ∀ id, t.cell Slot.cell id = if id = l.id then
        (Slot.settle ⟨none, some s.asked, []⟩ (result.map fun _ => s.made)).2
      else s.cell Slot.cell id := by
  have asks : s.ask Slot.cell identifier =
      (s.setCell l.id ⟨none, some s.asked, []⟩).enter (.waiting l) := by
    rw [ask_of_missing Slot.lawful_cell known (missing ▸ rfl), missing]
    rfl
  have asked : Traces Slot.cell s [.asked s.asked identifier] (s.ask Slot.cell identifier) :=
    .one (step_resolve s identifier)
  rw [asks] at asked
  have waits : ((s.setCell l.id ⟨none, some s.asked, []⟩).enter (.waiting l)).call? s.asked =
      some (.waiting l) := by
    rw [call?_enter]
    exact if_pos rfl
  have own : (s.setCell l.id ⟨none, some s.asked, []⟩).cell Slot.cell l.id =
      ⟨none, some s.asked, []⟩ := by
    rw [cell_setCell, if_pos rfl]
  have turn : Slot.cell.maker ((s.setCell l.id ⟨none, some s.asked, []⟩).cell Slot.cell l.id) =
      some s.asked := by
    rw [own]
    rfl
  have here : s.asked ∈
      Slot.cell.callers ((s.setCell l.id ⟨none, some s.asked, []⟩).cell Slot.cell l.id) := by
    rw [own]
    exact List.mem_cons_self
  have begun := asked.next (step_begin waits turn)
  have makes : (((s.setCell l.id ⟨none, some s.asked, []⟩).enter (.waiting l)).setCall s.asked
      (.making l)).call? s.asked = some (.making l) := by
    rw [call?_setCall, if_pos rfl]
  have finished := finished Slot.lawful_cell makes turn here result
  refine ⟨_, begun.trans finished, rfl, rfl, fun id => ?_⟩
  rw [cell_leave, cell_settle]
  split
  · show (Slot.settle ((s.setCell l.id ⟨none, some s.asked, []⟩).cell Slot.cell l.id) _).2 = _
    rw [own]
    rfl
  · rename_i other
    exact cell_setCell.trans (if_neg other)

/-- The languages have the slots of a runner. -/
structure Shows {World : Type} (s : Front Slot) (r : Runner World) : Prop where
  catalog : s.catalog = r.catalog
  made : s.made = r.made
  slots (id : String) : s.cell Slot.cell id = r.slot id

namespace Shows

variable {World : Type} {y : Executors World} {r : Runner World} {s : Front Slot}

theorem new (catalog : Catalog) (w : World) : Shows (new catalog) (Runner.new catalog w) :=
  ⟨rfl, rfl, fun _ => rfl⟩

theorem enter (shows : Shows s r) : Shows (s.enter k) r := ⟨shows.catalog, shows.made, shows.slots⟩

theorem leave (shows : Shows s r) : Shows (s.leave c) r := ⟨shows.catalog, shows.made, shows.slots⟩

/-- A runner that comes to an executor takes the steps of a call that nobody comes between. -/
theorem resolve (shows : Shows s r) (settled : r.IsSettled) (identifier : String) :
    ∃ h t, Traces Slot.cell s
      (.asked s.asked identifier :: h ++ [.returned s.asked (r.resolve y identifier).1]) t ∧
      Shows t (r.resolve y identifier).2 := by
  have way : Resolution y r identifier (r.resolve y identifier) := settled.resolution
  generalize r.resolve y identifier = p at way
  have find {l : Language} (known : r.catalog.find? identifier = some l) :
      s.catalog.find identifier = .ok l := by
    rw [shows.catalog, Catalog.find, known]
  -- a call that is answered at once returns with its reply
  have answered {reply : Except Failure (Language × ExecutorId)}
      (asks : s.ask Slot.cell identifier = s.enter (.answered reply)) :
      ∃ h t, Traces Slot.cell s (.asked s.asked identifier :: h ++ [.returned s.asked reply]) t ∧
        Shows t r := by
    have asked : Traces Slot.cell s [.asked s.asked identifier] (s.ask Slot.cell identifier) :=
      .one (step_resolve s identifier)
    rw [asks] at asked
    have returned := asked.next (step_wake (by rw [call?_enter, if_pos rfl]))
    exact ⟨[], _, returned, shows.enter.leave⟩
  -- the slot of an executor that is missing is empty
  have empty {l : Language} (missing : (r.slot l.id).executor = none) :
      s.cell Slot.cell l.id = .empty := by
    obtain ⟨maker, queue⟩ := settled l.id
    rw [shows.slots]
    generalize r.slot l.id = a at missing maker queue
    obtain ⟨executor, maker, queue⟩ := a
    subst missing maker queue
    rfl
  cases way with
  | unknown unknown =>
    refine answered (ask_of_unknown ?_)
    rw [shows.catalog, Catalog.find, unknown]
  | there known there =>
    exact answered (ask_of_there Slot.lawful_cell (find known) (shows.slots _ ▸ there))
  | @failed l f w known missing failed =>
    obtain ⟨t, run, catalog, made, slots⟩ := attempt (find known) (empty missing) (.error f)
    refine ⟨[_, _], t, run, catalog.trans shows.catalog, made.trans shows.made, fun id => ?_⟩
    rw [slots]
    split
    · rename_i same
      rw [same, slot_setSlot_self]
      rfl
    · rename_i other
      rw [slot_setSlot_of_ne other]
      exact shows.slots id
  | @made l w known missing made =>
    obtain ⟨t, run, catalog, made, slots⟩ := attempt (find known) (empty missing) (.ok ())
    rw [shows.made] at run
    refine ⟨[_, _], t, run, catalog.trans shows.catalog, made.trans ?_, fun id => ?_⟩
    · exact congrArg (· + 1) shows.made
    · rw [slots]
      split
      · rename_i same
        rw [same, slot_setSlot_self, ← shows.made]
        rfl
      · rename_i other
        rw [slot_setSlot_of_ne other]
        exact shows.slots id

/-- A runner finds an executor where the front does. -/
theorem loaded (shows : Shows s r) (identifier : String) :
    (r.loaded identifier).map Option.isSome =
      (s.executor? Slot.cell identifier).map Option.isSome := by
  unfold Runner.loaded executor?
  rw [shows.catalog]
  cases r.catalog.find identifier with
  | error f => rfl
  | ok l =>
    show Except.ok (if (r.slot l.id).executor.isSome then some l else none).isSome =
      .ok (s.cell Slot.cell l.id).executor.isSome
    rw [shows.slots]
    cases (r.slot l.id).executor <;> rfl

end Shows

end SnippetRunner.Runner.Front
