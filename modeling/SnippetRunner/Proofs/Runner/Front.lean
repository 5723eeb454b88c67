import SnippetRunner.Runner.Front

/-!
# Who is in line

The callers that a cell knows are the calls of its language that have no reply. This is kept by every
step, so that a call in line is not forgotten: it comes to its turn by the steps of the calls of its own
language, whatever the calls of other languages do meanwhile.
-/

namespace SnippetRunner.Runner

variable {σ : Type} {x : Cell σ}

/-! ## Slots are cells -/

/-- The cell of a slot keeps the rules of cells. -/
theorem Slot.lawful_cell : Slot.cell.Lawful where
  executor_empty := rfl
  callers_empty := rfl
  maker_empty := rfl
  ask_of_there {a e} c there := by
    simp only [cell] at there ⊢
    unfold ask
    rw [there]
  ask_of_missing {a} c missing := by
    obtain ⟨executor, maker, queue⟩ := a
    obtain rfl : executor = none := missing
    cases maker with
    | none => exact ⟨rfl, rfl, .refl _, rfl⟩
    | some m => exact ⟨rfl, rfl, (List.perm_append_singleton c (m :: queue)), rfl⟩
  settle_ok {a c} e turn := by
    obtain ⟨executor, maker, queue⟩ := a
    obtain rfl : maker = some c := turn
    exact ⟨rfl, rfl, rfl, rfl⟩
  settle_error {a c} f turn := by
    obtain ⟨executor, maker, queue⟩ := a
    obtain rfl : maker = some c := turn
    cases queue with
    | nil => exact ⟨rfl, rfl, .refl _, nofun, fun _ => rfl⟩
    | cons d queue =>
      refine ⟨rfl, rfl, .refl _, fun m first => ?_, nofun⟩
      obtain rfl : d = m := Option.some.inj first
      exact List.mem_cons_self

/-! ## Cells -/

/-- No caller is in line twice, it is the turn of one of them, and nobody waits for an executor that is
there. -/
structure Cell.Fit (x : Cell σ) (a : σ) : Prop where
  nodup : (x.callers a).Nodup
  led : x.Led a
  idle {e : ExecutorId} : x.executor a = some e → x.callers a = []

namespace Cell.Fit

variable {a : σ} {c : CallerId}

theorem empty (lawful : x.Lawful) : x.Fit x.empty where
  nodup := lawful.callers_empty ▸ .nil
  led := ⟨fun _ turn => absurd (lawful.maker_empty.symm.trans turn) nofun,
    fun _ => lawful.callers_empty⟩
  idle := fun _ => lawful.callers_empty

theorem ask (lawful : x.Lawful) (fit : x.Fit a) (missing : x.executor a = none)
    (new : c ∉ x.callers a) : x.Fit (x.ask a c).2 := by
  obtain ⟨-, still, callers, maker⟩ := lawful.ask_of_missing c missing
  refine ⟨callers.nodup_iff.2 (List.nodup_cons.2 ⟨new, fit.nodup⟩), ⟨fun m turn => ?_, fun none => ?_⟩,
    fun there => absurd (still.symm.trans there) nofun⟩
  · rw [callers.mem_iff, List.mem_cons]
    -- the maker stays the maker, or the new caller is the first one
    cases first : x.maker a with
    | none =>
      rw [maker, first] at turn
      exact .inl (Option.some.inj turn).symm
    | some d =>
      rw [maker, first] at turn
      exact .inr (Option.some.inj turn ▸ fit.led.1 d first)
  · exact absurd (maker.symm.trans none) nofun

theorem settle_ok (lawful : x.Lawful) (turn : x.maker a = some c) (e : ExecutorId) :
    x.Fit (x.settle a (.ok e)).2 := by
  obtain ⟨-, -, callers, maker⟩ := lawful.settle_ok e turn
  exact ⟨callers ▸ .nil, ⟨fun _ turn => absurd (maker.symm.trans turn) nofun, fun _ => callers⟩,
    fun _ => callers⟩

theorem settle_error (lawful : x.Lawful) (fit : x.Fit a) (turn : x.maker a = some c) (f : Failure) :
    x.Fit (x.settle a (.error f)).2 := by
  obtain ⟨-, missing, callers, led⟩ := lawful.settle_error f turn
  exact ⟨(List.nodup_cons.1 (callers.nodup_iff.1 fit.nodup)).2, led,
    fun there => absurd (missing.symm.trans there) nofun⟩

end Cell.Fit

/-- The language whose executor a call has to get. -/
def Call.wanted? : Call → Option String
  | .waiting l | .making l => some l.id
  | .answered _ => none

namespace Front

variable {s s₁ s₂ t : Front σ} {c d : CallerId} {id identifier : String} {k : Call} {l : Language}
  {e : ExecutorId} {f : Failure} {a : σ} {ev : Event}

/-! ## Parts of a front -/

@[simp] theorem call?_setCall : (s.setCall c k).call? d = if d = c then some k else s.call? d :=
  Table.get?_set ..

@[simp] theorem call?_enter : (s.enter k).call? d = if d = s.asked then some k else s.call? d :=
  Table.get?_set ..

@[simp] theorem call?_leave : (s.leave c).call? d = if d = c then none else s.call? d :=
  Table.get?_erase ..

@[simp] theorem cell_setCall : (s.setCall c k).cell x id = s.cell x id := rfl

@[simp] theorem cell_enter : (s.enter k).cell x id = s.cell x id := rfl

@[simp] theorem cell_leave : (s.leave c).cell x id = s.cell x id := rfl

@[simp] theorem call?_setCell : (s.setCell id a).call? c = s.call? c := rfl

/-- The cell of one language is in another state. -/
theorem get?_set_cells {cells : Table String σ} {k : String} :
    ((cells.set id a).get? k).getD x.empty = if k = id then a else (cells.get? k).getD x.empty := by
  rw [Table.get?_set]
  split <;> rfl

@[simp] theorem cell_setCell {k : String} :
    (s.setCell id a).cell x k = if k = id then a else s.cell x k :=
  get?_set_cells

theorem get?_reply {calls : Table CallerId Call} {r : Except Failure ExecutorId} :
    (reply calls c r).get? d = if d = c then (calls.get? d).map (Call.answer r) else calls.get? d := by
  unfold reply
  cases there : calls.get? c with
  | none =>
    by_cases same : d = c
    · rw [if_pos same, same, there]
      rfl
    · rw [if_neg same]
  | some k =>
    rw [Table.get?_set]
    by_cases same : d = c
    · rw [if_pos same, if_pos same, same, there]
      rfl
    · rw [if_neg same, if_neg same]

theorem answer_answer (r r' : Except Failure ExecutorId) (k : Call) :
    (k.answer r).answer r' = k.answer r := by
  cases k <;> rfl

/-- The callers that get a reply are answered, and no others. -/
theorem get?_replies {r : Except Failure ExecutorId} (cs : List CallerId)
    (calls : Table CallerId Call) :
    ((cs.map fun c => (c, r)).foldl (fun calls r => reply calls r.1 r.2) calls).get? d =
      if d ∈ cs then (calls.get? d).map (Call.answer r) else calls.get? d := by
  induction cs generalizing calls with
  | nil => rfl
  | cons c cs ih =>
    rw [List.map_cons, List.foldl_cons, ih, get?_reply]
    by_cases same : d = c
    · rw [if_pos same, if_pos (List.mem_cons.2 (.inl same)), Option.map_map]
      have once : Call.answer r ∘ Call.answer r = Call.answer r := funext (answer_answer r r)
      rw [once, ite_self]
    · simp only [List.mem_cons, same, if_false, false_or]

/-! ## Steps -/

/-- What a step can do, with what is seen of it. -/
inductive Step (x : Cell σ) (s : Front σ) : Event → Front σ → Prop where
  | unknown {identifier : String} {f : Failure} (unknown : s.catalog.find identifier = .error f) :
    Step x s (.asked s.asked identifier) (s.enter (.answered (.error f)))
  | there {identifier : String} {l : Language} {e : ExecutorId}
    (known : s.catalog.find identifier = .ok l) (there : x.executor (s.cell x l.id) = some e) :
    Step x s (.asked s.asked identifier) (s.enter (.answered (.ok (l, e))))
  | waits {identifier : String} {l : Language} (known : s.catalog.find identifier = .ok l)
    (missing : x.executor (s.cell x l.id) = none) :
    Step x s (.asked s.asked identifier)
      ((s.setCell l.id (x.ask (s.cell x l.id) s.asked).2).enter (.waiting l))
  | begun {c : CallerId} {l : Language} (waits : s.call? c = some (.waiting l))
    (turn : x.maker (s.cell x l.id) = some c) : Step x s (.begun c l) (s.setCall c (.making l))
  | failed {c : CallerId} {l : Language} (f : Failure) (makes : s.call? c = some (.making l)) :
    Step x s (.ended c l (.error f)) (s.settle x l (.error f))
  | made {c : CallerId} {l : Language} (makes : s.call? c = some (.making l)) :
    Step x s (.ended c l (.ok s.made)) (s.settle x l (.ok ()))
  | returned {c : CallerId} {r : Except Failure (Language × ExecutorId)}
    (answered : s.call? c = some (.answered r)) : Step x s (.returned c r) (s.leave c)
  | loaded (identifier : String) : Step x s (.loaded identifier (s.executor? x identifier)) s

theorem ask_of_unknown (unknown : s.catalog.find identifier = .error f) :
    s.ask x identifier = s.enter (.answered (.error f)) := by
  unfold ask
  rw [unknown]

theorem ask_of_there (lawful : x.Lawful) (known : s.catalog.find identifier = .ok l)
    (there : x.executor (s.cell x l.id) = some e) :
    s.ask x identifier = s.enter (.answered (.ok (l, e))) := by
  unfold ask
  rw [known]
  dsimp only
  rw [lawful.ask_of_there s.asked there]

theorem ask_of_missing (lawful : x.Lawful) (known : s.catalog.find identifier = .ok l)
    (missing : x.executor (s.cell x l.id) = none) : s.ask x identifier =
      (s.setCell l.id (x.ask (s.cell x l.id) s.asked).2).enter (.waiting l) := by
  have found : x.ask (s.cell x l.id) s.asked = (none, (x.ask (s.cell x l.id) s.asked).2) :=
    Prod.ext (lawful.ask_of_missing s.asked missing).1 rfl
  unfold ask
  rw [known]
  dsimp only
  rw [found]

/-- Every step is one of these. -/
theorem step_cases (lawful : x.Lawful) {lb : Label} (took : s.step x lb = some (t, ev)) :
    Step x s ev t := by
  cases lb with
  | resolve identifier =>
    cases took
    cases known : s.catalog.find identifier with
    | error f =>
      rw [ask_of_unknown known]
      exact .unknown known
    | ok l =>
      cases there : x.executor (s.cell x l.id) with
      | some e =>
        rw [ask_of_there lawful known there]
        exact .there known there
      | none =>
        rw [ask_of_missing lawful known there]
        exact .waits known there
  | begin c =>
    dsimp only [step] at took
    split at took
    · rename_i l waits
      split at took
      · rename_i turn
        cases took
        exact .begun waits turn
      · cases took
    · cases took
  | finish c result =>
    dsimp only [step] at took
    split at took
    · rename_i l makes
      cases took
      cases result with
      | error f => exact .failed f makes
      | ok => exact .made makes
    · cases took
  | wake c =>
    dsimp only [step] at took
    split at took
    · rename_i r answered
      cases took
      exact .returned answered
    · cases took
  | loaded identifier =>
    cases took
    exact .loaded identifier

section
variable (lawful : x.Lawful) (turn : x.maker (s.cell x l.id) = some c)

include lawful turn

/-- A failed attempt is the reply to the call that has made it, and to no other. -/
theorem call?_settle_error : (s.settle x l (.error f)).call? d =
    if d = c then (s.call? d).map (Call.answer (.error f)) else s.call? d := by
  have replies := (lawful.settle_error f turn).1
  show ((x.settle (s.cell x l.id) (.error f)).1.foldl (fun calls r => reply calls r.1 r.2)
    s.calls).get? d = _
  rw [replies]
  exact get?_reply

/-- An executor that has been made is the reply to all who are in line. -/
theorem call?_settle_ok : (s.settle x l (.ok ())).call? d =
    if d ∈ x.callers (s.cell x l.id) then (s.call? d).map (Call.answer (.ok s.made))
    else s.call? d := by
  have replies := (lawful.settle_ok s.made turn).1
  show ((x.settle (s.cell x l.id) (.ok s.made)).1.foldl (fun calls r => reply calls r.1 r.2)
    s.calls).get? d = _
  rw [replies]
  exact get?_replies ..

end

theorem cell_settle {result : Except Failure Unit} : (s.settle x l result).cell x id =
    if id = l.id then (x.settle (s.cell x l.id) (result.map fun _ => s.made)).2 else s.cell x id :=
  get?_set_cells

theorem cell_settle_self {result : Except Failure Unit} : (s.settle x l result).cell x l.id =
    (x.settle (s.cell x l.id) (result.map fun _ => s.made)).2 :=
  cell_settle.trans (if_pos rfl)

/-! ## The line -/

/-- The language whose executor a caller has to get. -/
def wanted? (s : Front σ) (c : CallerId) : Option String := (s.call? c).bind Call.wanted?

theorem wanted?_of_call? (here : s.call? c = some k) : s.wanted? c = k.wanted? := by
  rw [wanted?, here, Option.bind_some]

theorem wanted?_enter : (s.enter k).wanted? c = if c = s.asked then k.wanted? else s.wanted? c := by
  rw [wanted?, call?_enter]
  exact apply_ite (fun k : Option Call => k.bind Call.wanted?) ..

theorem wanted?_setCall : (s.setCall c k).wanted? d = if d = c then k.wanted? else s.wanted? d := by
  rw [wanted?, call?_setCall]
  exact apply_ite (fun k : Option Call => k.bind Call.wanted?) ..

theorem wanted?_leave : (s.leave c).wanted? d = if d = c then none else s.wanted? d := by
  rw [wanted?, call?_leave]
  exact apply_ite (fun k : Option Call => k.bind Call.wanted?) ..

/-- A call that gets a reply wants nothing more. -/
theorem wanted?_answer (r : Except Failure ExecutorId) (k : Option Call) :
    (k.map (Call.answer r)).bind Call.wanted? = none := by
  rcases k with _ | _ | _ | _ <;> rfl

theorem wanted?_settle_error (lawful : x.Lawful) (turn : x.maker (s.cell x l.id) = some c) :
    (s.settle x l (.error f)).wanted? d = if d = c then none else s.wanted? d := by
  rw [wanted?, call?_settle_error lawful turn, apply_ite fun k : Option Call => k.bind Call.wanted?,
    wanted?_answer]
  rfl

theorem wanted?_settle_ok (lawful : x.Lawful) (turn : x.maker (s.cell x l.id) = some c) :
    (s.settle x l (.ok ())).wanted? d =
      if d ∈ x.callers (s.cell x l.id) then none else s.wanted? d := by
  rw [wanted?, call?_settle_ok lawful turn, apply_ite fun k : Option Call => k.bind Call.wanted?,
    wanted?_answer]
  rfl

/-- The callers of a cell are the calls that want its executor. -/
structure Orderly (x : Cell σ) (s : Front σ) : Prop where
  cells (id : String) : x.Fit (s.cell x id)
  callers {id : String} {c : CallerId} : c ∈ x.callers (s.cell x id) ↔ s.wanted? c = some id
  making {c : CallerId} {l : Language} : s.call? c = some (.making l) →
    x.maker (s.cell x l.id) = some c
  fresh {c : CallerId} : s.asked ≤ c → s.call? c = none

theorem orderly_new (lawful : x.Lawful) (catalog : Catalog) : Orderly x (new catalog) where
  cells _ := .empty lawful
  callers {id c} := by
    show c ∈ x.callers x.empty ↔ none = some id
    rw [lawful.callers_empty]
    exact ⟨nofun, nofun⟩
  making := nofun
  fresh _ := rfl

namespace Orderly

variable (h : Orderly x s)

include h

theorem wanted?_of_fresh (new : s.asked ≤ c) : s.wanted? c = none := by
  rw [wanted?, h.fresh new, Option.bind_none]

/-- Nobody gets in line and nobody gets a reply. -/
theorem of_same (cells : ∀ id, t.cell x id = s.cell x id) (wanted : ∀ c, t.wanted? c = s.wanted? c)
    (making : ∀ c l, t.call? c = some (.making l) →
      s.call? c = some (.making l) ∨ x.maker (s.cell x l.id) = some c)
    (fresh : ∀ c, t.asked ≤ c → t.call? c = none) : Orderly x t where
  cells id := cells id ▸ h.cells id
  callers {id c} := by rw [cells, wanted, h.callers]
  making {c l} makes := by
    rw [cells]
    exact (making c l makes).elim h.making id
  fresh := fresh _

/-- A call that has its reply at once does not get in line. -/
theorem enter (r : Except Failure (Language × ExecutorId)) : Orderly x (s.enter (.answered r)) := by
  refine h.of_same (fun _ => rfl) (fun c => ?_) (fun c l makes => .inl ?_) fun c past => ?_
  · rw [wanted?_enter]
    split
    · rename_i new
      rw [h.wanted?_of_fresh (Nat.le_of_eq new.symm)]
      rfl
    · rfl
  · rw [call?_enter] at makes
    split at makes
    · cases makes
    · exact makes
  · have new : c ≠ s.asked := Nat.ne_of_gt past
    rw [call?_enter, if_neg new]
    exact h.fresh (Nat.le_of_succ_le past)

theorem begin (waits : s.call? c = some (.waiting l)) (turn : x.maker (s.cell x l.id) = some c) :
    Orderly x (s.setCall c (.making l)) := by
  refine h.of_same (fun _ => rfl) (fun d => ?_) (fun d k makes => ?_) fun d past => ?_
  · rw [wanted?_setCall]
    split
    · rename_i same
      rw [same, wanted?_of_call? waits]
      rfl
    · rfl
  · rw [call?_setCall] at makes
    split at makes
    · rename_i same
      cases makes
      exact .inr (same ▸ turn)
    · exact .inl makes
  · rw [call?_setCall, if_neg, h.fresh past]
    rintro rfl
    exact absurd ((h.fresh past).symm.trans waits) nofun

theorem leave {r : Except Failure (Language × ExecutorId)} (answered : s.call? c = some (.answered r)) :
    Orderly x (s.leave c) := by
  refine h.of_same (fun _ => rfl) (fun d => ?_) (fun d k makes => .inl ?_) fun d past => ?_
  · rw [wanted?_leave]
    split
    · rename_i same
      rw [same, wanted?_of_call? answered]
      rfl
    · rfl
  · rw [call?_leave] at makes
    split at makes
    · cases makes
    · exact makes
  · rw [call?_leave, h.fresh past, ite_self]

/-- The line at one cell changes. -/
theorem of_cell (fit : x.Fit a) (cell : ∀ k, t.cell x k = if k = id then a else s.cell x k)
    (own : ∀ c, c ∈ x.callers a ↔ t.wanted? c = some id)
    (others : ∀ k ≠ id, ∀ c, t.wanted? c = some k ↔ s.wanted? c = some k)
    (making : ∀ c l, t.call? c = some (.making l) → x.maker (t.cell x l.id) = some c)
    (fresh : ∀ c, t.asked ≤ c → t.call? c = none) : Orderly x t where
  cells k := by
    rw [cell]
    split
    · exact fit
    · exact h.cells k
  callers {k c} := by
    rw [cell]
    split
    · rename_i same
      rw [same, own]
    · rename_i other
      rw [others k other, h.callers]
  making := making _ _
  fresh := fresh _

/-- A call gets in line. -/
theorem lineUp (lawful : x.Lawful) (missing : x.executor (s.cell x l.id) = none) :
    Orderly x ((s.setCell l.id (x.ask (s.cell x l.id) s.asked).2).enter (.waiting l)) := by
  obtain ⟨-, -, callers, maker⟩ := lawful.ask_of_missing s.asked missing
  have unasked := h.wanted?_of_fresh (Nat.le_refl _)
  have new : s.asked ∉ x.callers (s.cell x l.id) := fun here =>
    absurd (unasked.symm.trans (h.callers.1 here)) nofun
  have wanted (c : CallerId) :
      ((s.setCell l.id (x.ask (s.cell x l.id) s.asked).2).enter (.waiting l)).wanted? c =
        if c = s.asked then some l.id else s.wanted? c := wanted?_enter
  refine h.of_cell ((h.cells l.id).ask lawful missing new) (fun _ => cell_setCell) (fun c => ?_)
    (fun id other c => ?_) (fun c k makes => ?_) fun c past => ?_
  · rw [callers.mem_iff, List.mem_cons, wanted, h.callers]
    by_cases same : c = s.asked
    · simp [same]
    · simp [same]
  · rw [wanted]
    split
    · rename_i same
      rw [same, unasked]
      simp [other.symm]
    · rfl
  · rw [call?_enter] at makes
    split at makes
    · cases makes
    · -- whoever makes the executor goes on, also where the new call waits for it
      have turn := h.making makes
      rw [cell_enter, cell_setCell]
      split
      · rename_i same
        rw [same] at turn
        rw [maker, turn]
        rfl
      · exact turn
  · have new : c ≠ s.asked := Nat.ne_of_gt past
    rw [call?_enter]
    exact (if_neg new).trans (h.fresh (Nat.le_of_succ_le past))

section
variable (lawful : x.Lawful) (makes : s.call? c = some (.making l))

include lawful makes

/-- The call whose attempt has failed is out of the line. -/
theorem fail (f : Failure) : Orderly x (s.settle x l (.error f)) := by
  have turn := h.making makes
  obtain ⟨-, -, callers, -⟩ := lawful.settle_error f turn
  have gone := (List.nodup_cons.1 (callers.nodup_iff.1 (h.cells l.id).nodup)).1
  refine h.of_cell ((h.cells l.id).settle_error lawful turn f) (fun _ => cell_settle)
    (fun d => ?_) (fun id other d => ?_) (fun d k makes' => ?_) fun d past => ?_
  · rw [wanted?_settle_error lawful turn]
    by_cases same : d = c
    · rw [same, if_pos rfl]
      exact ⟨fun here => absurd here gone, nofun⟩
    · rw [if_neg same, ← h.callers, callers.mem_iff, List.mem_cons]
      exact (or_iff_right same).symm
  · rw [wanted?_settle_error lawful turn]
    split
    · rename_i same
      rw [same, wanted?_of_call? makes]
      simp [Call.wanted?, other.symm]
    · rfl
  · rw [call?_settle_error lawful turn] at makes'
    split at makes'
    · rename_i same
      rw [same, makes] at makes'
      cases makes'
    · -- another attempt under way is one for another language
      rename_i other
      have turn' := h.making makes'
      rw [cell_settle, if_neg]
      · exact turn'
      · intro same
        rw [same] at turn'
        exact other (Option.some.inj (turn'.symm.trans turn))
  · rw [call?_settle_error lawful turn, h.fresh past, Option.map_none, ite_self]

/-- Nobody is in line for an executor that has been made. -/
theorem make : Orderly x (s.settle x l (.ok ())) := by
  have turn := h.making makes
  obtain ⟨-, -, callers, -⟩ := lawful.settle_ok s.made turn
  refine h.of_cell (Cell.Fit.settle_ok lawful turn s.made) (fun _ => cell_settle)
    (fun d => ?_) (fun id other d => ?_) (fun d k makes' => ?_) fun d past => ?_
  · rw [callers, wanted?_settle_ok lawful turn]
    split
    · exact ⟨nofun, nofun⟩
    · rename_i absent
      exact ⟨nofun, fun here => absurd (h.callers.2 here) absent⟩
  · rw [wanted?_settle_ok lawful turn]
    split
    · rename_i here
      rw [h.callers.1 here]
      simp [other.symm]
    · rfl
  · rw [call?_settle_ok lawful turn] at makes'
    split at makes'
    · obtain ⟨k', -, answered⟩ := Option.map_eq_some_iff.1 makes'
      cases k' <;> cases answered
    · rename_i absent
      have turn' := h.making makes'
      rw [cell_settle, if_neg]
      · exact turn'
      · intro same
        rw [same] at turn'
        exact absent ((h.cells l.id).led.1 d turn')
  · rw [call?_settle_ok lawful turn, h.fresh past, Option.map_none, ite_self]

end

/-- Every step keeps the line. -/
theorem step (lawful : x.Lawful) (took : Step x s ev t) : Orderly x t := by
  cases took with
  | unknown => exact h.enter _
  | there => exact h.enter _
  | waits _ missing => exact h.lineUp lawful missing
  | begun waits turn => exact h.begin waits turn
  | failed f makes => exact h.fail lawful makes f
  | made makes => exact h.make lawful makes
  | returned answered => exact h.leave answered
  | loaded => exact h

end Orderly

/-! ## Runs -/

namespace Traces

variable {past later : List Event} {lb : Label}

theorem trans (first : Traces x s past s₁) (second : Traces x s₁ later s₂) :
    Traces x s (past ++ later) s₂ := by
  induction second with
  | refl => exact (List.append_nil past).symm ▸ first
  | next _ step ih => exact (List.append_assoc ..) ▸ ih.next step

theorem one (step : s.step x lb = some (t, ev)) : Traces x s [ev] t := Traces.refl.next step

/-- Taking steps by labels is a run. -/
theorem of_trace {ls : List Label} (took : s.trace x ls = some (past, t)) : Traces x s past t := by
  induction ls generalizing s past with
  | nil =>
    cases took
    exact .refl
  | cons lb ls ih =>
    obtain ⟨⟨s₁, ev⟩, step, rest⟩ := Option.bind_eq_some_iff.1 took
    obtain ⟨⟨later, s₂⟩, more, last⟩ := Option.map_eq_some_iff.1 rest
    cases last
    exact (one step).trans (ih more)

theorem orderly (lawful : x.Lawful) (run : Traces x s past t) (start : Orderly x s) : Orderly x t := by
  induction run with
  | refl => exact start
  | next _ step ih => exact ih.step lawful (step_cases lawful step)

end Traces

/-! ## Coming to one's turn -/

/-- An attempt at the executor of a language is seen, which ends as it is said. -/
inductive Event.Attempts (outcome : CallerId → Except Failure Unit) (id : String) : Event → Prop where
  | begun {c : CallerId} {l : Language} (own : l.id = id) : Attempts outcome id (.begun c l)
  | ended {c : CallerId} {l : Language} {r : Except Failure ExecutorId} (own : l.id = id)
    (ends : r.map (fun _ => ()) = outcome c) : Attempts outcome id (.ended c l r)

theorem step_resolve (s : Front σ) (identifier : String) :
    s.step x (.resolve identifier) = some (s.ask x identifier, .asked s.asked identifier) := rfl

theorem step_begin (waits : s.call? c = some (.waiting l))
    (turn : x.maker (s.cell x l.id) = some c) :
    s.step x (.begin c) = some (s.setCall c (.making l), .begun c l) := by
  simp only [step, waits, turn, if_true]

theorem step_finish (makes : s.call? c = some (.making l)) (result : Except Failure Unit) :
    s.step x (.finish c result) =
      some (s.settle x l result, .ended c l (result.map fun _ => s.made)) := by
  simp only [step, makes]

theorem step_wake {r : Except Failure (Language × ExecutorId)}
    (answered : s.call? c = some (.answered r)) :
    s.step x (.wake c) = some (s.leave c, .returned c r) := by
  simp only [step, answered]

theorem wanted?_cases (wants : s.wanted? c = some id) : ∃ l, l.id = id ∧
    (s.call? c = some (.waiting l) ∨ s.call? c = some (.making l)) := by
  obtain ⟨k, here, wants⟩ := Option.bind_eq_some_iff.1 wants
  cases k with
  | waiting l => exact ⟨l, Option.some.inj wants, .inl here⟩
  | making l => exact ⟨l, Option.some.inj wants, .inr here⟩
  | answered r => cases wants

/-- Whoever is in line gets a reply for its language. -/
theorem answer_of_wanted (wants : s.wanted? c = some id) (r : Except Failure ExecutorId) :
    ∃ l, l.id = id ∧ (s.call? c).map (Call.answer r) = some (.answered (r.map fun e => (l, e))) := by
  obtain ⟨l, own, call | call⟩ := wanted?_cases wants
  · exact ⟨l, own, congrArg (Option.map _) call⟩
  · exact ⟨l, own, congrArg (Option.map _) call⟩

namespace Orderly

variable (h : Orderly x s)

include h

/-- Where somebody is in line, it is the turn of a caller in line. -/
theorem exists_maker (wants : s.wanted? c = some id) :
    ∃ m l, x.maker (s.cell x id) = some m ∧ l.id = id ∧
      (s.call? m = some (.waiting l) ∨ s.call? m = some (.making l)) := by
  cases turn : x.maker (s.cell x id) with
  | none =>
    have here := h.callers.2 wants
    rw [(h.cells id).led.2 turn] at here
    cases here
  | some m =>
    obtain ⟨l, own, call⟩ := wanted?_cases (h.callers.1 ((h.cells id).led.1 m turn))
    exact ⟨m, l, rfl, own, call⟩

/-- The caller whose turn it is begins its attempt, unless it has begun. -/
theorem exists_making (wants : s.wanted? c = some id)
    (outcome : CallerId → Except Failure Unit) :
    ∃ past t m l, Traces x s past t ∧ (∀ ev ∈ past, ev.Attempts outcome id) ∧
      (∀ k, t.cell x k = s.cell x k) ∧ l.id = id ∧ t.call? m = some (.making l) := by
  obtain ⟨m, l, turn, rfl, waits | makes⟩ := h.exists_maker wants
  · have step := step_begin waits turn
    refine ⟨[.begun m l], s.setCall m (.making l), m, l, .one step, ?_, fun _ => rfl, rfl, ?_⟩
    · exact List.forall_mem_singleton.2 (.begun rfl)
    · rw [call?_setCall, if_pos rfl]
  · exact ⟨[], s, m, l, .refl, nofun, fun _ => rfl, rfl, makes⟩

/-- A caller in line gets a reply by the attempts at the executor of its own language, however these
end: no other call has to take a step. -/
theorem served (lawful : x.Lawful) (wants : s.wanted? c = some id)
    (outcome : CallerId → Except Failure Unit) :
    ∃ past t r, Traces x s past t ∧ (∀ ev ∈ past, ev.Attempts outcome id) ∧
      t.call? c = some (.answered r) := by
  -- the line gets shorter with each attempt that fails, and an attempt that does not answers all
  induction line : (x.callers (s.cell x id)).length generalizing s with
  | zero =>
    have here := h.callers.2 wants
    rw [List.eq_nil_of_length_eq_zero line] at here
    cases here
  | succ n ih =>
    obtain ⟨past, s₁, m, l, run, attempts, cells, rfl, makes⟩ := h.exists_making wants outcome
    have h₁ := run.orderly lawful h
    have turn := h₁.making makes
    have here : c ∈ x.callers (s₁.cell x l.id) := by
      rw [cells]
      exact h.callers.2 wants
    have ended := run.next (step_finish makes (outcome m))
    have seen : ∀ ev ∈ past ++ [.ended m l ((outcome m).map fun _ => s₁.made)],
        ev.Attempts outcome l.id := by
      refine List.forall_mem_append.2 ⟨attempts, List.forall_mem_singleton.2 (.ended rfl ?_)⟩
      cases outcome m <;> rfl
    cases ends : outcome m with
    | ok =>
      rw [ends] at ended seen
      obtain ⟨k, -, answered⟩ := answer_of_wanted (h₁.callers.1 here) (.ok s₁.made)
      refine ⟨_, _, .ok (k, s₁.made), ended, seen, ?_⟩
      exact (call?_settle_ok lawful turn).trans ((if_pos here).trans answered)
    | error f =>
      rw [ends] at ended seen
      obtain ⟨-, -, callers, -⟩ := lawful.settle_error f turn
      by_cases same : c = m
      · obtain ⟨k, -, answered⟩ := answer_of_wanted (h₁.callers.1 here) (.error f)
        refine ⟨_, _, .error f, ended, seen, ?_⟩
        exact (call?_settle_error lawful turn).trans ((if_pos same).trans answered)
      · have h₂ := h₁.fail lawful makes f
        have here₂ : c ∈ x.callers ((s₁.settle x l (.error f)).cell x l.id) := by
          rw [cell_settle_self]
          exact (List.mem_cons.1 (callers.mem_iff.1 here)).resolve_left same
        have shorter : (x.callers ((s₁.settle x l (.error f)).cell x l.id)).length = n := by
          rw [← cells] at line
          rw [cell_settle_self]
          exact Nat.succ.inj (callers.length_eq.symm.trans line)
        obtain ⟨later, t, r, rest, others, answered⟩ := ih h₂ (h₂.callers.1 here₂) shorter
        exact ⟨_, t, r, ended.trans rest, List.forall_mem_append.2 ⟨seen, others⟩, answered⟩

/-- A caller in line returns. -/
theorem returns (lawful : x.Lawful) (wants : s.wanted? c = some id)
    (outcome : CallerId → Except Failure Unit) :
    ∃ later t r, Traces x s (later ++ [.returned c r]) t ∧ ∀ ev ∈ later, ev.Attempts outcome id := by
  obtain ⟨later, t, r, run, attempts, answered⟩ := h.served lawful wants outcome
  exact ⟨later, _, r, run.next (step_wake answered), attempts⟩

/-- Whoever asks at any time returns, by the attempts at the executor of its own language alone. -/
theorem asks (lawful : x.Lawful) (identifier : String) (outcome : CallerId → Except Failure Unit) :
    ∃ later t r, Traces x s (.asked s.asked identifier :: later ++ [.returned s.asked r]) t ∧
      ∀ ev ∈ later, ∃ l, s.catalog.find identifier = .ok l ∧ ev.Attempts outcome l.id := by
  have asked := Traces.one (step_resolve (x := x) s identifier)
  cases known : s.catalog.find identifier with
  | error f =>
    rw [ask_of_unknown known] at asked
    have answered : (s.enter (.answered (.error f))).call? s.asked = some (.answered (.error f)) := by
      rw [call?_enter, if_pos rfl]
    exact ⟨[], _, _, asked.next (step_wake answered), nofun⟩
  | ok l =>
    cases there : x.executor (s.cell x l.id) with
    | some e =>
      rw [ask_of_there lawful known there] at asked
      have answered : (s.enter (.answered (.ok (l, e)))).call? s.asked =
          some (.answered (.ok (l, e))) := by
        rw [call?_enter, if_pos rfl]
      exact ⟨[], _, _, asked.next (step_wake answered), nofun⟩
    | none =>
      rw [ask_of_missing lawful known there] at asked
      have wants : ((s.setCell l.id (x.ask (s.cell x l.id) s.asked).2).enter
          (.waiting l)).wanted? s.asked = some l.id :=
        wanted?_enter.trans (if_pos rfl)
      obtain ⟨later, t, r, run, attempts⟩ := (h.lineUp lawful there).returns lawful wants outcome
      exact ⟨later, t, r, asked.trans run, fun ev seen => ⟨l, rfl, attempts ev seen⟩⟩

/-- After a failed attempt the cell is empty, and some caller in line, if there is one, can make the
next attempt. -/
theorem retried (lawful : x.Lawful) (makes : s.call? c = some (.making l)) (f : Failure) :
    x.executor ((s.settle x l (.error f)).cell x l.id) = none ∧
    ∀ d k, (s.settle x l (.error f)).call? d = some (.waiting k) → k.id = l.id →
      ∃ m k t, k.id = l.id ∧ (s.settle x l (.error f)).step x (.begin m) = some (t, .begun m k) := by
  have turn := h.making makes
  refine ⟨?_, fun d k waits own => ?_⟩
  · rw [cell_settle_self]
    exact (lawful.settle_error f turn).2.1
  · have wants : (s.settle x l (.error f)).wanted? d = some l.id :=
      (wanted?_of_call? waits).trans (congrArg some own)
    obtain ⟨m, k, turn', own, waits | makes'⟩ := (h.fail lawful makes f).exists_maker wants
    · exact ⟨m, k, _, own, step_begin waits (own ▸ turn')⟩
    · -- the only attempt under way has just failed
      rw [call?_settle_error lawful turn] at makes'
      split at makes'
      · rename_i same
        rw [same, makes] at makes'
        cases makes'
      · rename_i other
        have first := h.making makes'
        rw [own, turn] at first
        exact absurd (Option.some.inj first).symm other

end Orderly

end Front

end SnippetRunner.Runner
