import SnippetRunner.Proofs.Runner.Contract
import SnippetRunner.Proofs.Runner.Sequence

/-!
# Order among the deeds of a runner

An executor is made once, and nothing is done with it before. It is found ready by every execution,
since it was made ready and has been neither terminated nor lost after that. This is kept by
everything that is done with an executor at its time.
-/

namespace SnippetRunner

namespace Runner

variable {World : Type} {past journal : List Deed} {d : Deed} {id : String}

/-! ## Order -/

/-- The language of the executor that something is done with. -/
def Deed.subject : Deed → String
  | .construct id _ | .prepare id _ | .execute id .. | .terminate id => id

/-- The executor is terminated, or is lost in an execution. -/
def Deed.Stops : Deed → Prop
  | .terminate _ => True
  | .execute _ _ _ _ left _ => left ≠ .ready
  | .construct .. | .prepare .. => False

/-- The executor of a language has been made. -/
def Made (past : List Deed) (id : String) : Prop := .construct id (.ok ()) ∈ past

/-- The executor of a language has been made ready, and has been neither terminated nor lost after
that. -/
def Readied (past : List Deed) (id : String) : Prop :=
  ∃ before between, past = before ++ .prepare id (.ok ()) :: between ∧
    ∀ d ∈ between, d.subject = id → ¬d.Stops

/-- Something may be done after what has been done: an executor is made only once, nothing is done
with one that has not been made, and it is ready when it is to execute something. -/
def Due (past : List Deed) : Deed → Prop
  | .construct id _ => ¬Made past id
  | .prepare id _ | .terminate id => Made past id
  | .execute id _ _ found _ _ => Made past id ∧ found = .ready ∧ Readied past id

/-- Everything was done when it might be done. -/
def Orderly (journal : List Deed) : Prop :=
  ∀ past d rest, journal = past ++ d :: rest → Due past d

theorem orderly_nil : Orderly [] := by
  intro past d rest h
  cases past <;> cases h

theorem Orderly.snoc (h : Orderly journal) (due : Due journal d) : Orderly (journal ++ [d]) := by
  intro past e rest split
  -- the deed in question is the last one, or the journal before that has it too
  rcases List.eq_nil_or_concat rest with rfl | ⟨rest, f, rfl⟩
  · obtain ⟨rfl, last⟩ := List.append_inj' split rfl
    cases last
    exact due
  · rw [List.concat_eq_append, ← List.cons_append, ← List.append_assoc] at split
    exact h past e rest (List.append_inj' split rfl).1

theorem readied_snoc : Readied (past ++ [.prepare id (.ok ())]) id :=
  ⟨past, [], rfl, fun _ h => nomatch h⟩

theorem Readied.snoc (h : Readied past id) (keeps : d.subject = id → ¬d.Stops) :
    Readied (past ++ [d]) id := by
  obtain ⟨before, between, rfl, kept⟩ := h
  refine ⟨before, between ++ [d], by simp, fun e he => ?_⟩
  rcases List.mem_append.1 he with he | he
  · exact kept e he
  · rw [List.mem_singleton.1 he]
    exact keeps

theorem made_snoc : Made (past ++ [d]) id ↔ Made past id ∨ d = .construct id (.ok ()) := by
  unfold Made
  rw [List.mem_append, List.mem_singleton]
  exact or_congr_right eq_comm

/-! ## The invariant -/

/-- What holds of a recorded runner between two operations. -/
structure InOrder (x : Executors World) (catalog : Catalog) (valid : World → Prop)
    (r : Runner (World × List Deed)) : Prop where
  serves : r.catalog = catalog
  settled : r.IsSettled
  valid : valid r.world.1
  /-- The slots hold the executors that have been made. -/
  slots : ∀ id, (r.slot id).executor.isSome = true ↔ Made r.world.2 id
  /-- An executor is ready only if it has been made ready. -/
  readied : ∀ l ∈ catalog.languages, x.phase l.id r.world.1 = .ready → Readied r.world.2 l.id
  orderly : Orderly r.world.2

variable {x : Executors World} {catalog : Catalog} {valid : World → Prop} {code : String}
  {budget : Option Budget} {l : Language} {w w' : World} {r r' : Runner (World × List Deed)}

theorem inOrder_new (start : valid w) (fresh : ∀ l ∈ catalog.languages, x.phase l.id w ≠ .ready) :
    InOrder x catalog valid (new catalog (w, [])) where
  serves := rfl
  settled := isSettled_new
  valid := start
  slots := fun _ => ⟨nofun, nofun⟩
  readied := fun l known ready => absurd ready (fresh l known)
  orderly := orderly_nil

namespace InOrder

variable (h : InOrder x catalog valid r)

include h

/-- A language whose slot is filled has its executor made. -/
theorem made_of_slot {e : ExecutorId} (there : (r.slot id).executor = some e) : Made r.world.2 id := by
  rw [← h.slots, there]
  rfl

theorem not_made_of_slot (missing : (r.slot id).executor = none) : ¬Made r.world.2 id := by
  rw [← h.slots, missing]
  exact nofun

variable (lawful : x.Lawful catalog valid) (known : l ∈ catalog.languages)

include lawful known

/-- Something is done with the executor of a language when it may be done. What is to be shown is
what becomes of that one executor. -/
theorem act (acts : x.Acts l.id r.world.1 w') (same : r'.catalog = r.catalog)
    (world : r'.world = (w', r.world.2 ++ [d])) (mine : d.subject = l.id) (due : Due r.world.2 d)
    (settled : r'.IsSettled)
    (slots : ∀ id, (r'.slot id).executor.isSome = true ↔ Made (r.world.2 ++ [d]) id)
    (readied : x.phase l.id w' = .ready → Readied (r.world.2 ++ [d]) l.id) :
    InOrder x catalog valid r' where
  serves := same.trans h.serves
  settled := settled
  valid := by
    rw [world]
    exact (lawful l known).stays h.valid acts
  slots := by
    rw [world]
    exact slots
  readied := by
    rw [world]
    intro k hk ready
    by_cases same : k.id = l.id
    · rw [same] at ready ⊢
      exact readied ready
    · -- another executor is as ready as before, and the deed is none of its own
      rw [(lawful l known).apart h.valid acts same] at ready
      exact (h.readied k hk ready).snoc fun e => absurd (e.symm.trans mine) same
  orderly := by
    rw [world]
    exact h.orderly.snoc due

/-- Something is done with an executor that has been made. -/
theorem act_of_made (acts : x.Acts l.id r.world.1 w') (mine : d.subject = l.id)
    (made : Made r.world.2 l.id) (due : Due r.world.2 d)
    (readied : x.phase l.id w' = .ready → Readied (r.world.2 ++ [d]) l.id) :
    InOrder x catalog valid { r with world := (w', r.world.2 ++ [d]) } := by
  refine h.act lawful known acts rfl rfl mine due h.settled (fun k => ?_) readied
  rw [made_snoc]
  -- the deed makes no executor: that would not be due where there is one
  refine (h.slots k).trans ⟨.inl, ?_⟩
  rintro (before | rfl)
  · exact before
  · have hk : k = l.id := mine
    rw [← hk] at made
    exact absurd made due

theorem prepare (made : Made r.world.2 l.id) :
    InOrder x catalog valid { r with world := (x.recorded.prepare l.id r.world).2 } := by
  refine h.act_of_made lawful known .prepare rfl made made fun ready => ?_
  by_cases ok : (x.prepare l.id r.world.1).1 = .ok ()
  · rw [ok]
    exact readied_snoc
  · have before := (lawful l known).unprepared h.valid ok ready
    exact (h.readied l known before).snoc fun _ stops => stops

theorem execute (made : Made r.world.2 l.id) (ready : x.phase l.id r.world.1 = .ready) :
    InOrder x catalog valid
      { r with world := (x.recorded.execute l.id code budget r.world).2 } := by
  have readied := h.readied l known ready
  refine h.act_of_made lawful known (.execute code budget) rfl made ⟨made, ready, readied⟩ ?_
  exact fun left => readied.snoc fun _ stops => stops left

theorem terminate (made : Made r.world.2 l.id) :
    InOrder x catalog valid { r with world := x.recorded.terminate l.id r.world } :=
  h.act_of_made lawful known .terminate rfl made made fun ready =>
    absurd ready ((lawful l known).terminate h.valid)

/-- An executor is made, or the attempt fails; its slot tells which. -/
theorem construct {n : Nat} {s : Slot} (missing : (r.slot l.id).executor = none)
    (maker : s.maker = none) (queue : s.queue = [])
    (filled : s.executor.isSome = true ↔ (x.construct l.id r.world.1).1 = .ok ()) :
    InOrder x catalog valid
      ({ r with made := n, world := (x.recorded.construct l.id r.world).2 }.setSlot l.id s) := by
  have unmade : ¬Made r.world.2 l.id := h.not_made_of_slot missing
  refine h.act lawful known .construct rfl rfl rfl unmade (h.settled.setSlot maker queue) ?_ ?_
  · intro k
    rw [made_snoc]
    by_cases hk : k = l.id
    · rw [hk, slot_setSlot_self, filled]
      constructor
      · exact fun ok => .inr (by rw [ok])
      · rintro (before | made)
        · exact absurd before unmade
        · exact (Deed.construct.inj made).2
    · rw [slot_setSlot_of_ne hk]
      refine (h.slots k).trans ⟨.inl, ?_⟩
      rintro (before | made)
      · exact before
      · exact absurd (Deed.construct.inj made).1.symm hk
  · intro ready
    have before := (lawful l known).construct h.valid ready
    exact (h.readied l known before).snoc fun _ stops => stops

end InOrder

end Runner

end SnippetRunner
