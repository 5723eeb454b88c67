import SnippetRunner.Proofs.Runner.Front

/-!
# One executor for each language

However calls come between each other, and however often attempts fail: the executor of a language is
made once, all who ask for it by any of its names get this one, and an attempt that fails is a matter of
the call that has made it.

What a call does and sees is one of four courses, and at any time it stands somewhere on its course.
This is an invariant for each call by itself. That calls of one language get the same executor is an
invariant of the cells: what stands in a cell is what has been made, and it is never replaced.
-/

namespace SnippetRunner.Runner

namespace Front

/-! ## Histories -/

/-- The caller whose step it is. -/
def Event.caller? : Event → Option CallerId
  | .asked c _ | .begun c _ | .ended c _ _ | .returned c _ => some c
  | .loaded .. => none

/-- The executor of a language that is made here. -/
def Event.made? (id : String) : Event → Option ExecutorId
  | .ended _ l (.ok e) => if id = l.id then some e else none
  | _ => none

/-- The executors that have been made for a language. -/
def executors (id : String) (h : List Event) : List ExecutorId := h.filterMap (Event.made? id)

/-- The steps of a caller. -/
def own (c : CallerId) (h : List Event) : List Event := h.filter fun ev => ev.caller? = some c

/-- A caller has begun to make the executor of a language, and has not come to an end. -/
def UnderWay (c : CallerId) (l : Language) (h : List Event) : Prop :=
  .begun c l ∈ h ∧ ∀ r, .ended c l r ∉ h

/-- What a call may come to, from the first step to the last one. -/
inductive Course (catalog : Catalog) (c : CallerId) : List Event → Prop where
  /-- There is no such language. -/
  | unknown {identifier : String} {f : Failure} (unknown : catalog.find identifier = .error f) :
    Course catalog c [.asked c identifier, .returned c (.error f)]
  /-- The executor is there, or another call makes it. -/
  | found {identifier : String} {l : Language} (known : catalog.find identifier = .ok l)
    (e : ExecutorId) : Course catalog c [.asked c identifier, .returned c (.ok (l, e))]
  /-- The call fails to make the executor. -/
  | failed {identifier : String} {l : Language} (known : catalog.find identifier = .ok l)
    (f : Failure) : Course catalog c [.asked c identifier, .begun c l, .ended c l (.error f),
      .returned c (.error f)]
  /-- The call makes the executor. -/
  | made {identifier : String} {l : Language} (known : catalog.find identifier = .ok l)
    (e : ExecutorId) : Course catalog c [.asked c identifier, .begun c l, .ended c l (.ok e),
      .returned c (.ok (l, e))]

/-- There is one executor for each language. -/
structure OneEach (catalog : Catalog) (h : List Event) : Prop where
  /-- Every call keeps to one of the courses. -/
  course (c : CallerId) : own c h = [] ∨ ∃ t, Course catalog c t ∧ own c h <+: t
  /-- One attempt for a language is under way at a time. -/
  alone {c d : CallerId} {l k : Language} : UnderWay c l h → UnderWay d k h → l.id = k.id → c = d
  /-- One attempt succeeds. -/
  once (id : String) : (executors id h).length ≤ 1
  /-- All calls for the language return with what it has made. -/
  same {c : CallerId} {l : Language} {e : ExecutorId} : .returned c (.ok (l, e)) ∈ h → executors l.id h = [e]
  /-- Other languages have other executors. -/
  apart {id k : String} {e : ExecutorId} : e ∈ executors id h → e ∈ executors k h → id = k

variable {σ : Type} {x : Cell σ} {s t : Front σ} {catalog : Catalog} {c d : CallerId} {id : String}
  {k : Option Call} {l : Language} {e : ExecutorId} {ev : Event} {h past : List Event}

theorem executors_snoc : executors id (h ++ [ev]) = executors id h ++ (ev.made? id).toList := by
  unfold executors
  rw [List.filterMap_append]
  cases found : ev.made? id <;> simp [found]

theorem own_snoc : own c (h ++ [ev]) = own c h ++ if ev.caller? = some c then [ev] else [] := by
  unfold own
  rw [List.filter_append]
  by_cases mine : ev.caller? = some c <;> simp [mine]

theorem own_snoc_of_ne (theirs : ev.caller? = some c) (other : d ≠ c) : own d (h ++ [ev]) = own d h := by
  rw [own_snoc, if_neg fun mine => other (Option.some.inj (mine.symm.trans theirs)), List.append_nil]

theorem own_snoc_self (mine : ev.caller? = some c) : own c (h ++ [ev]) = own c h ++ [ev] := by
  rw [own_snoc, if_pos mine]

theorem mem_own (mine : ev.caller? = some c) : ev ∈ own c h ↔ ev ∈ h := by
  unfold own
  rw [List.mem_filter, decide_eq_true mine]
  exact and_iff_left rfl

/-! ## Calls on their course -/

/-- Where a call stands on its course. -/
inductive Stands (catalog : Catalog) (c : CallerId) : List Event → Option Call → Prop where
  | unasked : Stands catalog c [] none
  | waiting {identifier : String} {l : Language} (known : catalog.find identifier = .ok l) :
    Stands catalog c [.asked c identifier] (some (.waiting l))
  | making {identifier : String} {l : Language} (known : catalog.find identifier = .ok l) :
    Stands catalog c [.asked c identifier, .begun c l] (some (.making l))
  | answered {t : List Event} {r : Except Failure (Language × ExecutorId)}
    (course : Course catalog c (t ++ [.returned c r])) : Stands catalog c t (some (.answered r))
  | returned {t : List Event} (course : Course catalog c t) : Stands catalog c t none

/-- An attempt that has been begun comes to an end on its course. -/
theorem Course.exists_ended {t : List Event} (course : Course catalog c t) (begun : .begun c l ∈ t) :
    ∃ r, .ended c l r ∈ t := by
  cases course with
  | unknown | found => simp at begun
  | failed _ f =>
    obtain rfl : l = _ := by simpa using begun
    exact ⟨.error f, by simp⟩
  | made _ e =>
    obtain rfl : l = _ := by simpa using begun
    exact ⟨.ok e, by simp⟩

namespace Stands

variable {t : List Event} (stands : Stands catalog c t k)

include stands

/-- Every call is on one of the courses. -/
theorem course : t = [] ∨ ∃ u, Course catalog c u ∧ t <+: u := by
  cases stands with
  | unasked => exact .inl rfl
  | waiting known => exact .inr ⟨_, .found known 0, ⟨_, rfl⟩⟩
  | making known => exact .inr ⟨_, .made known 0, ⟨_, rfl⟩⟩
  | answered course => exact .inr ⟨_, course, ⟨_, rfl⟩⟩
  | returned course => exact .inr ⟨_, course, List.prefix_rfl⟩

/-- A call whose attempt is under way makes the executor. -/
theorem making_of_begun (begun : .begun c l ∈ t) (open_ : ∀ r, .ended c l r ∉ t) :
    k = some (.making l) := by
  cases stands with
  | unasked | waiting => simp at begun
  | making =>
    obtain rfl : l = _ := by simpa using begun
    rfl
  | answered course =>
    obtain ⟨r, ended⟩ := course.exists_ended (List.mem_append_left _ begun)
    exact absurd (by simpa using ended) (open_ r)
  | returned course =>
    obtain ⟨r, ended⟩ := course.exists_ended begun
    exact absurd ended (open_ r)

end Stands

/-! ## The invariant -/

/-- An executor is made for one language. -/
theorem id_eq_of_made {k : String} {e' : ExecutorId} (makes : ev.made? id = some e)
    (makes' : ev.made? k = some e') : id = k := by
  unfold Event.made? at makes makes'
  split at makes
  · simp only [Option.ite_none_right_eq_some] at makes makes'
    exact makes.1.trans makes'.1.symm
  · cases makes

/-- Executors are counted. -/
theorem made_step (step : Step x s ev t) : s.made ≤ t.made := by
  cases step with
  | made => exact Nat.le_succ _
  | _ => exact Nat.le_refl _

/-- What the state after a run knows of its history. -/
structure Tells (x : Cell σ) (catalog : Catalog) (h : List Event) (s : Front σ) : Prop where
  serves : s.catalog = catalog
  orderly : Orderly x s
  stands (c : CallerId) : Stands catalog c (own c h) (s.call? c)
  unasked {c : CallerId} : s.asked ≤ c → own c h = []
  /-- The cells hold what has been made. -/
  executors (id : String) : executors id h = (x.executor (s.cell x id)).toList
  below {id : String} {e : ExecutorId} : x.executor (s.cell x id) = some e → e < s.made
  apart {id k : String} {e : ExecutorId} : x.executor (s.cell x id) = some e →
    x.executor (s.cell x k) = some e → id = k
  answered {c : CallerId} {l : Language} {e : ExecutorId} :
    s.call? c = some (.answered (.ok (l, e))) → x.executor (s.cell x l.id) = some e
  returned {c : CallerId} {l : Language} {e : ExecutorId} :
    .returned c (.ok (l, e)) ∈ h → x.executor (s.cell x l.id) = some e

theorem tells_new (lawful : x.Lawful) : Tells x catalog [] (new catalog) where
  serves := rfl
  orderly := orderly_new lawful catalog
  stands _ := .unasked
  unasked _ := rfl
  executors _ := congrArg Option.toList lawful.executor_empty.symm
  below there := absurd (lawful.executor_empty.symm.trans there) nofun
  apart there := absurd (lawful.executor_empty.symm.trans there) nofun
  answered := nofun
  returned := nofun

namespace Tells

variable (tells : Tells x catalog h s)

include tells

/-- It is nobody's turn at an executor that is there. -/
theorem missing_of_turn (turn : x.maker (s.cell x id) = some c) : x.executor (s.cell x id) = none := by
  have fit := tells.orderly.cells id
  cases there : x.executor (s.cell x id) with
  | none => rfl
  | some e =>
    have here := fit.led.1 c turn
    rw [fit.idle there] at here
    cases here

theorem missing_of_making (makes : s.call? c = some (.making l)) :
    x.executor (s.cell x l.id) = none :=
  tells.missing_of_turn (tells.orderly.making makes)

/-- A new call is at the start of its course. -/
theorem stands_enter {identifier : String} {k : Call}
    (start : Stands catalog s.asked [.asked s.asked identifier] (some k)) (d : CallerId) :
    Stands catalog d (own d (h ++ [.asked s.asked identifier])) ((s.enter k).call? d) := by
  rw [call?_enter]
  split
  · rename_i new
    rw [own_snoc_self (by rw [new]; rfl), new, tells.unasked (Nat.le_refl _)]
    exact start
  · rename_i other
    rw [own_snoc_of_ne rfl other]
    exact tells.stands d

/-- The step of one call, and the other calls stand as they stood. -/
theorem stands_of (mine : ev.caller? = some c)
    (next : Stands catalog c (own c h ++ [ev]) (t.call? c))
    (others : ∀ d ≠ c, t.call? d = s.call? d) (d : CallerId) :
    Stands catalog d (own d (h ++ [ev])) (t.call? d) := by
  by_cases same : d = c
  · rw [same, own_snoc_self mine]
    exact next
  · rw [own_snoc_of_ne mine same, others d same]
    exact tells.stands d

/-- A call that waits has asked for its language, and that is all. -/
theorem own_of_waiting (waits : s.call? c = some (.waiting l)) :
    ∃ identifier, catalog.find identifier = .ok l ∧ own c h = [.asked c identifier] := by
  have stands := tells.stands c
  rw [waits] at stands
  generalize own c h = t at stands
  cases stands with
  | waiting known => exact ⟨_, known, rfl⟩

theorem own_of_making (makes : s.call? c = some (.making l)) :
    ∃ identifier, catalog.find identifier = .ok l ∧
      own c h = [.asked c identifier, .begun c l] := by
  have stands := tells.stands c
  rw [makes] at stands
  generalize own c h = t at stands
  cases stands with
  | making known => exact ⟨_, known, rfl⟩

/-- Every step takes calls along their courses. -/
theorem stands_step (lawful : x.Lawful) (step : Step x s ev t) (d : CallerId) :
    Stands catalog d (own d (h ++ [ev])) (t.call? d) := by
  have serves := tells.serves
  cases step with
  | unknown unknown => exact tells.stands_enter (.answered (.unknown (serves ▸ unknown))) d
  | there known => exact tells.stands_enter (.answered (.found (serves ▸ known) _)) d
  | waits known => exact tells.stands_enter (.waiting (serves ▸ known)) d
  | @begun c l waits =>
    obtain ⟨identifier, known, own⟩ := tells.own_of_waiting waits
    refine tells.stands_of rfl ?_ (fun d other => ?_) d
    · rw [own, call?_setCall, if_pos rfl]
      exact .making known
    · rw [call?_setCall, if_neg other]
  | @failed c l f makes =>
    have turn := tells.orderly.making makes
    obtain ⟨identifier, known, own⟩ := tells.own_of_making makes
    refine tells.stands_of rfl ?_ (fun d other => ?_) d
    · rw [own, call?_settle_error lawful turn, if_pos rfl, makes]
      exact .answered (.failed known f)
    · rw [call?_settle_error lawful turn, if_neg other]
  | @made c l makes =>
    have turn := tells.orderly.making makes
    obtain ⟨identifier, known, own⟩ := tells.own_of_making makes
    by_cases same : d = c
    · rw [same, own_snoc_self rfl, own, call?_settle_ok lawful turn,
        if_pos ((tells.orderly.cells l.id).led.1 c turn), makes]
      exact .answered (.made known _)
    · rw [own_snoc_of_ne rfl same, call?_settle_ok lawful turn]
      split
      · -- another call in line waits for what has been made
        rename_i here
        obtain ⟨k, same_id, waits | makes'⟩ := wanted?_cases (tells.orderly.callers.1 here)
        · obtain ⟨identifier', known', own'⟩ := tells.own_of_waiting waits
          rw [own', waits]
          exact .answered (.found known' _)
        · have turn' := tells.orderly.making makes'
          rw [same_id, turn] at turn'
          exact absurd (Option.some.inj turn').symm same
      · exact tells.stands d
  | @returned c r answered =>
    have stands := tells.stands c
    rw [answered] at stands
    refine tells.stands_of rfl ?_ (fun d other => ?_) d
    · rw [call?_leave, if_pos rfl]
      generalize Front.own c h = t at stands
      cases stands with
      | answered course => exact .returned course
    · rw [call?_leave, if_neg other]
  | loaded =>
    rw [own_snoc, if_neg, List.append_nil]
    · exact tells.stands d
    · exact nofun

/-- An executor that is made is new, and is made for an empty cell. -/
theorem new_of_made (step : Step x s ev t) (makes : ev.made? id = some e) :
    x.executor (s.cell x id) = none ∧ e = s.made ∧ t.made = s.made + 1 := by
  cases step with
  | @made c l making =>
    obtain ⟨rfl, rfl⟩ : id = l.id ∧ s.made = e := by simpa [Event.made?] using makes
    exact ⟨tells.missing_of_making making, rfl, rfl⟩
  | _ => cases makes

/-- A cell holds what has just been made for its language, and what it has held before. -/
theorem executor_step (lawful : x.Lawful) (step : Step x s ev t) (id : String) :
    x.executor (t.cell x id) = (ev.made? id).or (x.executor (s.cell x id)) := by
  cases step with
  | unknown | there | begun | returned | loaded => rfl
  | @waits _ l known missing =>
    rw [cell_enter, cell_setCell]
    split
    · rename_i same
      rw [same, missing, (lawful.ask_of_missing s.asked missing).2.1]
      rfl
    · rfl
  | @failed c l f makes =>
    rw [cell_settle]
    split
    · rename_i same
      rw [same, tells.missing_of_making makes]
      exact (lawful.settle_error f (tells.orderly.making makes)).2.1
    · rfl
  | @made c l makes =>
    rw [cell_settle]
    show _ = (if id = l.id then some s.made else none : Option ExecutorId).or _
    split
    · exact (lawful.settle_ok s.made (tells.orderly.making makes)).2.1
    · rfl

/-- An executor that is there stays there. -/
theorem executor_kept (lawful : x.Lawful) (step : Step x s ev t)
    (there : x.executor (s.cell x id) = some e) : x.executor (t.cell x id) = some e := by
  rw [tells.executor_step lawful step, there]
  cases makes : ev.made? id with
  | none => rfl
  | some e' =>
    rw [(tells.new_of_made step makes).1] at there
    cases there

/-- A reply with an executor is one with the executor of the cell. -/
theorem answered_step (lawful : x.Lawful) (step : Step x s ev t)
    (answered : t.call? c = some (.answered (.ok (l, e)))) : x.executor (t.cell x l.id) = some e := by
  have kept (before : s.call? c = some (.answered (.ok (l, e)))) : x.executor (t.cell x l.id) = some e :=
    tells.executor_kept lawful step (tells.answered before)
  cases step with
  | unknown | waits | begun | returned =>
    simp only [call?_enter, call?_setCall, call?_leave] at answered
    split at answered
    · cases answered
    · exact kept answered
  | there _ there =>
    rw [call?_enter] at answered
    split at answered
    · cases answered
      exact there
    · exact kept answered
  | @failed c l f makes =>
    rw [call?_settle_error lawful (tells.orderly.making makes)] at answered
    split at answered
    · rename_i same
      rw [same, makes] at answered
      cases answered
    · exact kept answered
  | @made c k makes =>
    have turn := tells.orderly.making makes
    rw [call?_settle_ok lawful turn] at answered
    split at answered
    · rename_i here
      obtain ⟨l', own, reply⟩ := answer_of_wanted (tells.orderly.callers.1 here) (.ok s.made)
      rw [reply] at answered
      cases answered
      rw [cell_settle, if_pos own]
      exact (lawful.settle_ok s.made turn).2.1
    · exact kept answered
  | loaded => exact kept answered

/-- Only calls that have been asked take steps. -/
theorem asked_step (step : Step x s ev t) :
    s.asked ≤ t.asked ∧ ∀ c, ev.caller? = some c → c < t.asked := by
  have known {c : CallerId} {k : Call} (here : s.call? c = some k) : c < s.asked := by
    refine Nat.lt_of_not_le fun past => ?_
    rw [tells.orderly.fresh past] at here
    cases here
  cases step with
  | unknown | there | waits =>
    refine ⟨Nat.le_succ _, fun c mine => ?_⟩
    cases mine
    exact Nat.lt_succ_self _
  | begun here | failed _ here | made here | returned here =>
    refine ⟨Nat.le_refl _, fun c mine => ?_⟩
    cases mine
    exact known here
  | loaded => exact ⟨Nat.le_refl _, nofun⟩

/-- Every step adds to the history what it does. -/
theorem step (lawful : x.Lawful) (step : Step x s ev t) : Tells x catalog (h ++ [ev]) t := by
  have held := tells.executor_step lawful step
  obtain ⟨later, callers⟩ := tells.asked_step step
  -- what is in a cell after the step has been in it before, or is new
  have source {id : String} {e : ExecutorId} (there : x.executor (t.cell x id) = some e) :
      ev.made? id = some e ∧ e = s.made ∧ t.made = s.made + 1 ∨
        x.executor (s.cell x id) = some e ∧ e < s.made := by
    rw [held] at there
    rcases Option.or_eq_some_iff.1 there with makes | ⟨-, before⟩
    · exact .inl ⟨makes, (tells.new_of_made step makes).2⟩
    · exact .inr ⟨before, tells.below before⟩
  refine ⟨?_, tells.orderly.step lawful step, tells.stands_step lawful step, fun {c} past => ?_,
    fun id => ?_, fun {id e} there => ?_, fun {id k e} there there' => ?_,
    tells.answered_step lawful step, fun {c l e} returned => ?_⟩
  · cases step <;> exact tells.serves
  · rw [own_snoc, if_neg fun mine => absurd (callers c mine) (Nat.not_lt_of_le past),
      tells.unasked (Nat.le_trans later past)]
    rfl
  · rw [executors_snoc, tells.executors, held]
    cases makes : ev.made? id with
    | none => exact List.append_nil _
    | some e =>
      rw [(tells.new_of_made step makes).1]
      rfl
  · obtain ⟨-, rfl, more⟩ | ⟨-, below⟩ := source there
    · exact more ▸ Nat.lt_succ_self _
    · exact Nat.lt_of_lt_of_le below (made_step step)
  · -- a number that is new is in one cell alone
    rcases source there with ⟨makes, new, -⟩ | ⟨before, below⟩ <;>
      rcases source there' with ⟨makes', new', -⟩ | ⟨before', below'⟩
    · exact id_eq_of_made makes makes'
    · exact absurd new (Nat.ne_of_lt below')
    · exact absurd new' (Nat.ne_of_lt below)
    · exact tells.apart before before'
  · rcases List.mem_append.1 returned with before | now
    · exact tells.executor_kept lawful step (tells.returned before)
    · rw [← List.mem_singleton.1 now] at step
      cases step with
      | returned answered => exact tells.answered answered

/-- A call whose attempt is under way makes the executor. -/
theorem making_of_underWay (attempt : UnderWay c l h) : s.call? c = some (.making l) :=
  (tells.stands c).making_of_begun ((mem_own rfl).2 attempt.1)
    fun r ended => attempt.2 r ((mem_own rfl).1 ended)

theorem oneEach : OneEach catalog h where
  course c := (tells.stands c).course
  alone {c d l k} attempt attempt' same := by
    have turn := tells.orderly.making (tells.making_of_underWay attempt)
    have turn' := tells.orderly.making (tells.making_of_underWay attempt')
    rw [← same, turn] at turn'
    exact Option.some.inj turn'
  once id := by
    rw [tells.executors]
    cases x.executor (s.cell x id) <;> simp
  same returned := by
    rw [tells.executors, tells.returned returned]
    rfl
  apart {id k e} here here' := by
    rw [tells.executors, Option.mem_toList] at here here'
    exact tells.apart here here'

end Tells

theorem Traces.tells (lawful : x.Lawful) (run : Traces x (new catalog) h s) : Tells x catalog h s := by
  induction run with
  | refl => exact tells_new lawful
  | next _ step ih => exact ih.step lawful (step_cases lawful step)

/-! ## The result -/

/-- What can happen next after a run. -/
structure Open (x : Cell σ) (catalog : Catalog) (h : List Event) (s : Front σ) : Prop where
  /-- Who looks for the executor of a language, by any of its names, finds what has been made. -/
  seen (identifier : String) : s.step x (.loaded identifier) =
    some (s, .loaded identifier ((catalog.find identifier).map fun l => (executors l.id h).head?))
  /-- Nobody begins to make an executor that is there. -/
  needed {c : CallerId} {l : Language} {t : Front σ} :
    s.step x (.begin c) = some (t, .begun c l) → executors l.id h = []
  /-- An attempt that fails changes no other call and leaves nothing in the cell, and if somebody is in
  line, somebody can make the next attempt. -/
  retried {c : CallerId} {l : Language} {f : Failure} {t : Front σ} :
    s.step x (.finish c (.error f)) = some (t, .ended c l (.error f)) →
    (∀ d ≠ c, t.call? d = s.call? d) ∧ x.executor (t.cell x l.id) = none ∧
      ∀ d k, t.call? d = some (.waiting k) → k.id = l.id →
        ∃ m k t', k.id = l.id ∧ t.step x (.begin m) = some (t', .begun m k)
  /-- Who is in line can return after attempts for its own language alone, whichever of them fail. -/
  returns {c : CallerId} {id : String} (outcome : CallerId → Except Failure Unit) :
    s.wanted? c = some id → ∃ later t r, Traces x s (later ++ [.returned c r]) t ∧
      ∀ ev ∈ later, ev.Attempts outcome id
  /-- So can who asks now. -/
  asks (identifier : String) (outcome : CallerId → Except Failure Unit) :
    ∃ later t r, Traces x s (.asked s.asked identifier :: later ++ [.returned s.asked r]) t ∧
      ∀ ev ∈ later, ∃ l, catalog.find identifier = .ok l ∧ ev.Attempts outcome l.id

theorem Tells.open (lawful : x.Lawful) (tells : Tells x catalog h s) : Open x catalog h s where
  seen identifier := by
    have held : (fun l : Language => x.executor (s.cell x l.id)) =
        fun l => (Front.executors l.id h).head? := by
      funext l
      rw [tells.executors, Option.head?_toList]
    show some (s, Event.loaded identifier ((s.catalog.find identifier).map _)) = _
    rw [tells.serves, held]
  needed {c l t} took := by
    cases step_cases lawful took with
    | begun waits turn =>
      rw [tells.executors, tells.missing_of_turn turn]
      rfl
  retried {c l f t} took := by
    cases step_cases lawful took with
    | failed _ makes =>
      refine ⟨fun d other => ?_, tells.orderly.retried lawful makes f⟩
      rw [call?_settle_error lawful (tells.orderly.making makes), if_neg other]
  returns outcome wants := tells.orderly.returns lawful wants outcome
  asks identifier outcome := tells.serves ▸ tells.orderly.asks lawful identifier outcome

/-- However calls come between each other and whichever attempts fail: each language has one executor at
most, which all successful calls for it return, and a failed attempt is the failure of the call that has
made it and of no other. -/
theorem one_executor_each (lawful : x.Lawful) (run : Traces x (new catalog) h s) :
    OneEach catalog h ∧ Open x catalog h s :=
  have tells := run.tells lawful
  ⟨tells.oneEach, tells.open lawful⟩

/-- Two languages at once: an attempt fails, the next call in line makes the executor, and another one
gets it. -/
theorem one_executor_each_of_two :
    let h : List Event := [.asked 0 "py", .asked 1 " JS", .asked 2 "Python3", .begun 0 .python,
      .begun 1 .javascript, .loaded ".py" (.ok none),
      .ended 0 .python (.error (.initialization "python" "construct")), .begun 2 .python,
      .returned 0 (.error (.initialization "python" "construct")), .asked 3 "python",
      .ended 1 .javascript (.ok 0), .ended 2 .python (.ok 1), .returned 3 (.ok (.python, 1)),
      .returned 2 (.ok (.python, 1)), .returned 1 (.ok (.javascript, 0)),
      .loaded ".PY" (.ok (some 1)), .asked 4 "cobol",
      .returned 4 (.error (.unsupportedLanguage "cobol"))]
    Slot.cell.Lawful ∧ ∃ s, Traces Slot.cell (new .standard) h s ∧ OneEach .standard h ∧
      Open Slot.cell .standard h s := by
  intro h
  have took : ∃ s, (new .standard).trace Slot.cell [.resolve "py", .resolve " JS",
      .resolve "Python3", .begin 0, .begin 1, .loaded ".py",
      .finish 0 (.error (.initialization "python" "construct")), .begin 2, .wake 0,
      .resolve "python", .finish 1 (.ok ()), .finish 2 (.ok ()), .wake 3, .wake 2, .wake 1,
      .loaded ".PY", .resolve "cobol", .wake 4] = some (h, s) := ⟨_, rfl⟩
  obtain ⟨s, took⟩ := took
  have run := Traces.of_trace took
  exact ⟨Slot.lawful_cell, s, run, one_executor_each Slot.lawful_cell run⟩

end Front

end SnippetRunner.Runner
