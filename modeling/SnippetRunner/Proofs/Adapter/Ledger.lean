import Mathlib.Logic.Function.Basic
import SnippetRunner.Proofs.Adapter.Steps

/-!
# The ledger of an adapter

What the state of an adapter, the line and the calls owe each other can be told from little: of a
call it only matters whether it waits in line, starts a worker or runs one, and with which ticket.
That is the ledger. Most steps leave it as it is, and the others are its moves, one for each short
section that changes the state. Two laws hold in every ledger that can come about, also when callers
give up their calls: those of the line and those of the tickets.
-/

namespace SnippetRunner.Adapter

/-- What a call means for the state of the adapter and for the line. -/
inductive Duty where
  | idle
  | waits
  | starts (t : Ticket)
  | runs (t : Ticket) (w : WorkerId)

/-- The ticket that comes with a duty. -/
def Duty.ticket? : Duty → Option Ticket
  | .starts t | .runs t _ => some t
  | _ => none

/-- What a call means, by where it stands. -/
def Call.duty : Call → Duty
  | .asking _ => .idle
  | .waiting _ => .waits
  | .planning t _ | .readying t _ _ | .started t _ => .starts t
  | .executing t w _ _ | .executed t w _ _ _ => .runs t w

/-- The state of an adapter with the line and what all calls mean; a call that is not there means
nothing. -/
@[ext]
structure Ledger where
  state : State
  line : List CallId
  duty : CallId → Duty

namespace Ledger

/-- The ledger with another duty of a call. -/
def assign (g : Ledger) (c : CallId) (d : Duty) : Ledger :=
  { g with duty := Function.update g.duty c d }

/-- The ledger without a call. -/
def without (g : Ledger) (c : CallId) : Ledger :=
  { g.assign c .idle with line := g.line.filter fun d => d != c }

@[simp] theorem state_assign (g : Ledger) (c : CallId) (d : Duty) : (g.assign c d).state = g.state :=
  rfl

@[simp] theorem line_assign (g : Ledger) (c : CallId) (d : Duty) : (g.assign c d).line = g.line := rfl

@[simp] theorem state_without (g : Ledger) (c : CallId) : (g.without c).state = g.state := rfl

@[simp] theorem duty_assign_self (g : Ledger) (c : CallId) (d : Duty) :
    (g.assign c d).duty c = d :=
  Function.update_self ..

theorem duty_assign_of_ne (g : Ledger) {c e : CallId} (d : Duty) (h : e ≠ c) :
    (g.assign c d).duty e = g.duty e :=
  Function.update_of_ne h ..

@[simp] theorem duty_without_self (g : Ledger) (c : CallId) : (g.without c).duty c = .idle :=
  Function.update_self ..

theorem duty_without_of_ne (g : Ledger) {c e : CallId} (h : e ≠ c) :
    (g.without c).duty e = g.duty e :=
  Function.update_of_ne h ..

/-- Assigning the duty that a call has changes nothing. -/
theorem assign_eq_self {g : Ledger} {c : CallId} {d : Duty} (h : g.duty c = d) :
    g.assign c d = g := by
  subst h
  unfold assign
  rw [Function.update_eq_self]

/-- The moves of a ledger: the sections that change the state, and getting in line. -/
inductive Move (language : String) (g : Ledger) : Ledger → Prop where
  | join {c} (idle : g.duty c = .idle) :
    Move language g { g.assign c .waits with line := g.line ++ [c] }
  | skip {c} (waits : g.duty c = .waits) : Move language g (g.without c)
  | begin {c} (waits : g.duty c = .waits) (first : g.line.head? = some c)
    (ready : g.state.phase ≠ .ready) (executing : g.state.phase ≠ .executing) :
    Move language g { g.assign c (.starts g.state.ticket) with state := g.state.begin }
  | leave {c t q} (starts : g.duty c = .starts t) :
    Move language g { g.without c with state := (g.state.leave language t q).2 }
  | checkOut {c w} (idle : g.duty c = .idle) (ready : g.state.phase = .ready)
    (worker : g.state.worker = some w) :
    Move language g
      { g.assign c (.runs g.state.ticket w) with state := (g.state.checkOut language).2 }
  | bare (ready : g.state.phase = .ready) (worker : g.state.worker = none) :
    Move language g { g with state := (g.state.checkOut language).2 }
  | checkIn {c t w} (runs : g.duty c = .runs t w) :
    Move language g { g.without c with state := g.state.checkIn w t }
  | discard {c t w} (runs : g.duty c = .runs t w) :
    Move language g { g.without c with state := (g.state.discard t).2 }
  | terminate : Move language g { g with state := g.state.terminate }

end Ledger

/-! ## Steps as moves -/

namespace System

/-- The ledger of a system. -/
def ledger (s : System) : Ledger := ⟨s.state, s.line, fun c => (s.call? c).elim .idle Call.duty⟩

variable {s s' : System} {c : CallId} {l : Label} {r : Option Reply}

/-- A call has the duty of the place where it stands. -/
theorem duty_of_stands {k : Call} (h : s.call? c = some k) : s.ledger.duty c = k.duty := by
  simp [ledger, h]

/-- A call that is not there has no duty. -/
theorem duty_of_free (h : s.call? c = none) : s.ledger.duty c = .idle := by
  simp [ledger, h]

/-- A call with a duty is there. -/
theorem stands_of_duty {e : Duty} (h : s.ledger.duty c = e) (hn : e ≠ .idle) :
    ∃ k, s.call? c = some k ∧ k.duty = e := by
  cases hk : s.call? c with
  | none => exact absurd ((duty_of_free hk).symm.trans h).symm hn
  | some k => exact ⟨k, rfl, (duty_of_stands hk).symm.trans h⟩

@[simp] theorem ledger_setCall (s : System) (c : CallId) (k : Call) :
    (s.setCall c k).ledger = s.ledger.assign c k.duty := by
  ext d
  · rfl
  · rfl
  · by_cases h : d = c
    · subst h
      simp [ledger]
    · rw [Ledger.duty_assign_of_ne _ _ h]
      simp [ledger, h]

@[simp] theorem ledger_endCall (s : System) (c : CallId) :
    (s.endCall c).ledger = s.ledger.without c := by
  ext d
  · rfl
  · rfl
  · by_cases h : d = c
    · subst h
      simp [ledger]
    · rw [Ledger.duty_without_of_ne _ h]
      simp [ledger, h]

@[simp] theorem ledger_kill (s : System) (w : Option WorkerId) : (s.kill w).ledger = s.ledger := rfl

/-- A start or an execution that goes on has a duty with its ticket. -/
theorem ticket?_duty_of_going {k : Call} {t : Ticket} (h : k.going? = some t) :
    k.duty.ticket? = some t := by
  cases k <;> simp_all [Call.going?, Call.duty, Duty.ticket?]

/-- A call that goes on with the same duty leaves the ledger as it is. -/
theorem ledger_setCall_eq {k k' : Call} (stands : s.call? c = some k) (same : k'.duty = k.duty) :
    (s.setCall c k').ledger = s.ledger := by
  rw [ledger_setCall]
  exact Ledger.assign_eq_self ((duty_of_stands stands).trans same.symm)

/-- A start that goes on has the duty to start a worker. -/
theorem duty_of_starting {k : Call} {t : Ticket} (h : k.starting? = some t) : k.duty = .starts t := by
  cases k <;> simp_all [Call.starting?, Call.duty]

/-- Asking for a worker leaves the ledger as it is. -/
theorem ledger_ask (free : s.call? c = none) (asked : s.ask c = (s', r)) : s'.ledger = s.ledger := by
  rcases ask_cases asked with ⟨-, rfl⟩ | ⟨-, rfl⟩
  · rfl
  · exact (ledger_setCall ..).trans (Ledger.assign_eq_self (duty_of_free free))

/-- A call whose turn it is leaves the line, or begins a start. -/
theorem move_takeTurn {o : Nat} (stands : s.call? c = some (.waiting o))
    (first : s.line.head? = some c) (taken : s.takeTurn c o = (s', r)) :
    Ledger.Move s.language s.ledger s'.ledger := by
  have waits : s.ledger.duty c = .waits := duty_of_stands stands
  have leaves : Ledger.Move s.language s.ledger (s.endCall c).ledger := by
    rw [ledger_endCall]
    exact .skip waits
  rcases takeTurn_cases taken with ⟨-, rfl⟩ | ⟨idle, ⟨e, -, rfl⟩ | ⟨-, rfl⟩⟩
  · exact leaves
  · exact leaves
  · rw [not_or] at idle
    unfold begun
    rw [ledger_setCall]
    exact .begin waits first idle.1 idle.2

/-- An execution is refused, or takes the worker of the adapter. -/
theorem move_execute {code : String} {b : Budget} (free : s.call? c = none)
    (taken : s.execute c code b = (s', r)) :
    s'.ledger = s.ledger ∨ Ledger.Move s.language s.ledger s'.ledger := by
  rcases execute_cases taken with rfl | ⟨ready, ⟨w, worker, rfl⟩ | ⟨worker, rfl⟩⟩
  · exact .inl rfl
  · rw [ledger_setCall]
    exact .inr (.checkOut (duty_of_free free) ready worker)
  · exact .inr (.bare ready worker)

/-- A start that comes to its end changes the state, and its call goes. -/
theorem ledger_settleStart {t : Ticket} {q : Except Failure WorkerId}
    (settled : s.settleStart c t q = (s', r)) :
    s'.ledger = { s.ledger.without c with state := (s.state.leave s.language t q).2 } := by
  obtain ⟨v, rfl⟩ := settleStart_cases settled
  rw [ledger_kill, ledger_endCall]
  rfl

/-- So does an execution that keeps its worker. -/
theorem ledger_settleExecution_of_keeps {t : Ticket} {w : WorkerId} {ending : Worker.Ending}
    (keeps : ending.keepsWorker = true) : (s.settleExecution c t w ending).ledger =
      { s.ledger.without c with state := s.state.checkIn w t } := by
  obtain ⟨v, hs⟩ := settleExecution_of_keeps (s := s) (c := c) (t := t) (w := w) keeps
  rw [hs, ledger_kill, ledger_endCall]
  rfl

/-- So does an execution that has lost its worker. -/
theorem ledger_settleExecution_of_lost {t : Ticket} {w : WorkerId} {ending : Worker.Ending}
    (lost : ending.keepsWorker = false) : (s.settleExecution c t w ending).ledger =
      { s.ledger.without c with state := (s.state.discard t).2 } := by
  have same : (s.settleExecution c t w ending).ledger =
      (({ s with state := (s.state.discard t).2 } : System).endCall c).ledger := by
    rw [settleExecution_of_lost lost]
    rfl
  rw [same, ledger_endCall]
  rfl

/-- The end of an execution is a move, with its worker or without. -/
theorem move_settleExecution {t : Ticket} {w : WorkerId} {x : Errand}
    {e : Option Worker.Execution} {ending : Worker.Ending}
    (stands : s.call? c = some (.executed t w x e ending)) :
    Ledger.Move s.language s.ledger (s.settleExecution c t w ending).ledger := by
  have runs : s.ledger.duty c = .runs t w := duty_of_stands stands
  cases h : ending.keepsWorker with
  | true =>
    rw [ledger_settleExecution_of_keeps h]
    exact .checkIn runs
  | false =>
    rw [ledger_settleExecution_of_lost h]
    exact .discard runs

/-- A call that gets in line takes up the duty to wait. -/
theorem ledger_queue {o : Nat} : ((s.setCall c (.waiting o)).lineUp c).ledger =
    { s.ledger.assign c .waits with line := s.ledger.line ++ [c] } := by
  rw [← Call.duty, ← ledger_setCall]
  rfl

/-- A step with this label does not concern the ledger. -/
def Label.IsStill : Label → Prop
  | .prepare _ | .replace _ | .plan _ | .wake _ | .rest _ | .launch _ | .listen _ | .fail _ _ | .stop _
  | .send _ | .receive _ | .abandon _ _ | .deliver _ _ => True
  | .queue _ | .enter _ | .execute _ _ _ | .settle _ | .terminate | .drop _ => False

/-- Such a step leaves the ledger as it is. -/
theorem Step.ledger_eq (h : Step s l s' r) (still : l.IsStill) : s'.ledger = s.ledger := by
  cases h with
  | prepare free asked => exact ledger_ask free asked
  | replace free _ asked =>
    exact ledger_ask (s := { s with replacements := s.replacements - 1 }) free asked
  | plan _ => rfl
  | wake _ _ _ => rfl
  | rest _ _ _ => rfl
  | launch stands _ _ =>
    unfold System.launch
    exact ledger_setCall_eq (s := { s with desks := _, live := _ }) stands rfl
  | listen stands _ taken =>
    obtain ⟨b, m, ms, u, -, -, ⟨-, rfl⟩ | ⟨v, -, rfl⟩⟩ := listen_cases taken
    · exact ledger_setCall_eq (s := s.setDesk _ _) stands rfl
    · exact ledger_setCall_eq (s := s.setDesk _ _) stands rfl
  | fail stands starting _ _ =>
    exact ledger_setCall_eq (s := s.kill _) stands (duty_of_starting starting).symm
  | stop stands starting _ =>
    exact ledger_setCall_eq (s := s.kill _) stands (duty_of_starting starting).symm
  | send stands _ sent =>
    obtain ⟨b, -, rfl⟩ := send_cases sent
    exact ledger_setCall_eq (s := s.setDesk _ _) stands rfl
  | receive stands _ taken =>
    obtain ⟨b, m, ms, e, -, -, ⟨-, rfl⟩ | ⟨fault, -, rfl⟩⟩ := receive_cases taken
    · exact ledger_setCall_eq (s := s.setDesk _ _) stands rfl
    · exact ledger_setCall_eq (s := s.setDesk _ _) stands rfl
  | abandon stands _ => exact ledger_setCall_eq (s := s.kill _) stands rfl
  | deliver _ => rfl
  | queue | enter | execute | settleStart | settleExecution | terminate | drop => cases still

/-- Every step but giving up a call is a move of the ledger, or leaves it as it is. -/
theorem Step.move (h : Step s l s' r) :
    s'.ledger = s.ledger ∨ Ledger.Move s.language s.ledger s'.ledger ∨
      ∃ n, l = .drop n ∧ s'.ledger = s.ledger.without (.caller n) := by
  by_cases still : l.IsStill
  · exact .inl (h.ledger_eq still)
  cases h with
  | queue stands =>
    rw [ledger_queue]
    exact .inr (.inl (.join (duty_of_stands stands)))
  | enter stands first taken => exact .inr (.inl (move_takeTurn stands first taken))
  | execute free taken =>
    rcases move_execute free taken with same | moved
    · exact .inl same
    · exact .inr (.inl moved)
  | settleStart stands settled =>
    rw [ledger_settleStart settled]
    exact .inr (.inl (.leave (duty_of_stands stands)))
  | settleExecution stands => exact .inr (.inl (move_settleExecution stands))
  | terminate => exact .inr (.inl .terminate)
  | @drop n k _ _ =>
    refine .inr (.inr ⟨n, rfl, ?_⟩)
    unfold System.drop
    rw [ledger_kill, ledger_endCall]
  | prepare | replace | plan | wake | rest | launch | listen | fail | stop | send | receive | abandon
  | deliver => exact absurd trivial still

end System

/-! ## The laws of the line and of the tickets -/

namespace Ledger

/-- The law of the line: it holds the calls that wait or start, each of them once, and only the
first one starts. -/
structure Lined (g : Ledger) : Prop where
  nodup : g.line.Nodup
  mem_iff : ∀ c, c ∈ g.line ↔ g.duty c = .waits ∨ ∃ t, g.duty c = .starts t
  first : ∀ c t, g.duty c = .starts t → g.line.head? = some c

/-- The law of the tickets: the present token has the number of the present generation, the tokens
before it are those that are cancelled, and no call has a ticket from the future. -/
structure Dated (g : Ledger) : Prop where
  token : g.state.token = g.state.generation
  cancelled : ∀ n, n ∈ g.state.cancelled ↔ n < g.state.token
  tickets : ∀ c t, (g.duty c).ticket? = some t →
    t.token = t.generation ∧ t.generation ≤ g.state.generation

variable {g g' : Ledger} {c : CallId} {language : String}

namespace Lined

/-- Two calls that start are the same call. -/
theorem unique (h : Lined g) {c d : CallId} {t u : Ticket} (hc : g.duty c = .starts t)
    (hd : g.duty d = .starts u) : c = d :=
  Option.some.inj ((h.first c t hc).symm.trans (h.first d u hd))

/-- Where a call waits, somebody has the turn. -/
theorem exists_first (h : Lined g) (waits : g.duty c = .waits) :
    ∃ d, g.line.head? = some d := by
  have inLine : c ∈ g.line := (h.mem_iff c).2 (.inl waits)
  cases hline : g.line with
  | nil => simp [hline] at inLine
  | cons d rest => exact ⟨d, rfl⟩

/-- Only the line and the duties matter. -/
theorem withState (h : Lined g) (σ : State) : Lined { g with state := σ } :=
  ⟨h.nodup, h.mem_iff, h.first⟩

/-- Any call may go. -/
theorem without (h : Lined g) (c : CallId) : Lined (g.without c) where
  nodup := h.nodup.filter _
  mem_iff d := by
    by_cases hd : d = c
    · subst hd
      simp [Ledger.without, assign]
    · rw [duty_without_of_ne _ hd, ← h.mem_iff]
      simp [Ledger.without, hd]
  first d t hstarts := by
    have hd : d ≠ c := by
      intro same
      subst same
      simp at hstarts
    rw [duty_without_of_ne _ hd] at hstarts
    -- the first call stays the first one when a call behind it goes
    have head := h.first d t hstarts
    unfold Ledger.without
    cases hline : g.line with
    | nil => simp [hline] at head
    | cons e rest =>
      rw [hline, List.head?_cons, Option.some.injEq] at head
      simp [head, hd]

/-- A call gets in line. -/
theorem join (h : Lined g) (idle : g.duty c = .idle) :
    Lined { g.assign c .waits with line := g.line ++ [c] } := by
  have absent : c ∉ g.line := by
    rw [h.mem_iff, idle]
    simp
  refine ⟨?_, ?_, ?_⟩
  · simpa [List.nodup_append] using ⟨h.nodup, fun d hd hc => absent (hc ▸ hd)⟩
  · intro d
    by_cases hd : d = c
    · subst hd
      simp [assign]
    · have same : ({ g.assign c .waits with line := g.line ++ [c] } : Ledger).duty d = g.duty d :=
        duty_assign_of_ne _ _ hd
      rw [same, ← h.mem_iff]
      simp [hd]
  · intro d t hstarts
    by_cases hd : d = c
    · subst hd
      simp [assign] at hstarts
    · have old : g.duty d = .starts t := (duty_assign_of_ne g .waits hd).symm.trans hstarts
      -- the line was not empty, so getting in line changes nothing at its front
      have head := h.first d t old
      show (g.line ++ [c]).head? = some d
      rw [List.head?_append, head]
      rfl

/-- The first call begins to start. -/
theorem begin (h : Lined g) (waits : g.duty c = .waits) (first : g.line.head? = some c)
    (t : Ticket) : Lined (g.assign c (.starts t)) where
  nodup := h.nodup
  mem_iff d := by
    by_cases hd : d = c
    · subst hd
      simpa using (h.mem_iff d).2 (.inl waits)
    · rw [duty_assign_of_ne _ _ hd]
      exact h.mem_iff d
  first d u hstarts := by
    by_cases hd : d = c
    · subst hd
      exact first
    · rw [duty_assign_of_ne _ _ hd] at hstarts
      exact h.first d u hstarts

/-- A call that is not in line begins to run a worker. -/
theorem run (h : Lined g) (idle : g.duty c = .idle) (t : Ticket) (w : WorkerId) :
    Lined (g.assign c (.runs t w)) where
  nodup := h.nodup
  mem_iff d := by
    by_cases hd : d = c
    · subst hd
      have absent : d ∉ g.line := by
        rw [h.mem_iff, idle]
        simp
      simpa using absent
    · rw [duty_assign_of_ne _ _ hd]
      exact h.mem_iff d
  first d u hstarts := by
    by_cases hd : d = c
    · subst hd
      simp at hstarts
    · rw [duty_assign_of_ne _ _ hd] at hstarts
      exact h.first d u hstarts

/-- Every move keeps the law of the line. -/
theorem move (h : Lined g) (m : Move language g g') : Lined g' := by
  cases m with
  | join idle => exact h.join idle
  | skip _ => exact h.without _
  | begin waits first _ _ => exact (h.begin waits first _).withState _
  | leave _ => exact (h.without _).withState _
  | checkOut idle _ _ => exact (h.run idle _ _).withState _
  | bare _ _ => exact h.withState _
  | checkIn _ => exact (h.without _).withState _
  | discard _ => exact (h.without _).withState _
  | terminate => exact h.withState _

end Lined

namespace Dated

/-- Work is cancelled exactly when a termination has overtaken it. -/
theorem isCancelled_eq (h : Dated g) {t : Ticket} (ht : (g.duty c).ticket? = some t) :
    g.state.isCancelled t = g.state.isOutdated t := by
  obtain ⟨same, le⟩ := h.tickets c t ht
  -- the token of a ticket is its generation, and those before the present one are cancelled
  rw [Bool.eq_iff_iff, State.isCancelled_eq_true_iff, State.isOutdated_eq_true_iff, h.cancelled,
    h.token]
  omega

/-- A state with the same clock may take the place of the state. -/
theorem withState (h : Dated g) {σ : State} (same : σ.clock = g.state.clock) :
    Dated { g with state := σ } := by
  simp only [State.clock, Prod.mk.injEq] at same
  obtain ⟨generation, token, cancelled⟩ := same
  refine ⟨?_, ?_, ?_⟩
  · show σ.token = σ.generation
    rw [token, generation, h.token]
  · intro n
    show n ∈ σ.cancelled ↔ n < σ.token
    rw [cancelled, token]
    exact h.cancelled n
  · intro c t ht
    show t.token = t.generation ∧ t.generation ≤ σ.generation
    rw [generation]
    exact h.tickets c t ht

/-- A call may take up a duty without a ticket, or with the present one. -/
theorem assign (h : Dated g) (c : CallId) {d : Duty}
    (present : ∀ t, d.ticket? = some t → t = g.state.ticket) : Dated (g.assign c d) where
  token := h.token
  cancelled := h.cancelled
  tickets e t ht := by
    by_cases he : e = c
    · subst he
      rw [duty_assign_self] at ht
      rw [present t ht]
      exact ⟨h.token, Nat.le_refl _⟩
    · rw [duty_assign_of_ne _ _ he] at ht
      exact h.tickets e t ht

/-- The order of the line does not matter. -/
theorem withLine (h : Dated g) (line : List CallId) : Dated { g with line } :=
  ⟨h.token, h.cancelled, h.tickets⟩

/-- Any call may go. -/
theorem without (h : Dated g) (c : CallId) : Dated (g.without c) := by
  unfold Ledger.without
  exact (h.assign c (by simp [Duty.ticket?])).withLine _

/-- A termination begins a new generation, and cancels the token of the one before. -/
theorem terminate (h : Dated g) : Dated { g with state := g.state.terminate } where
  token := congrArg (· + 1) h.token
  cancelled n := by
    show n ∈ g.state.token :: g.state.cancelled ↔ n < g.state.token + 1
    rw [List.mem_cons, h.cancelled]
    omega
  tickets c t ht := by
    obtain ⟨same, le⟩ := h.tickets c t ht
    exact ⟨same, Nat.le_succ_of_le le⟩

/-- Every move keeps the law of the tickets. -/
theorem move (h : Dated g) (m : Move language g g') : Dated g' := by
  cases m with
  | join _ => exact (h.assign _ (by simp [Duty.ticket?])).withLine _
  | skip _ => exact h.without _
  | begin _ _ _ _ => exact (h.assign _ (by simp [Duty.ticket?])).withState State.clock_begin
  | leave _ => exact (h.without _).withState State.clock_leave
  | checkOut _ _ _ => exact (h.assign _ (by simp [Duty.ticket?])).withState State.clock_checkOut
  | bare _ _ => exact h.withState State.clock_checkOut
  | checkIn _ => exact (h.without _).withState State.clock_checkIn
  | discard _ => exact (h.without _).withState State.clock_discard
  | terminate => exact h.terminate

end Dated

/-- A ledger that obeys both laws. -/
structure Lawful (g : Ledger) : Prop extends Lined g, Dated g

end Ledger

/-! ## Runs -/

namespace System

variable {s s' : System} {allowed : Label → Prop} {l : Label} {r : Option Reply}

/-- A new adapter obeys both laws. -/
theorem lawful_new (language : String) (b : Budget) : (new language b).ledger.Lawful where
  nodup := List.nodup_nil
  mem_iff c := by simp [ledger, new, State.new, call?]
  first c t h := by simp [ledger, new, call?] at h
  token := rfl
  cancelled n := by simp [ledger, new, State.new]
  tickets c t h := by simp [ledger, new, call?, Duty.ticket?] at h

/-- Every step keeps both laws. -/
theorem Step.lawful (h : Step s l s' r) (hs : s.ledger.Lawful) : s'.ledger.Lawful := by
  rcases h.move with same | moved | ⟨n, -, gone⟩
  · rw [same]
    exact hs
  · exact ⟨hs.toLined.move moved, hs.toDated.move moved⟩
  · rw [gone]
    exact ⟨hs.toLined.without _, hs.toDated.without _⟩

/-- Both laws hold after every run of a new adapter. -/
theorem Runs.lawful {language : String} {b : Budget} (h : Runs allowed (new language b) s) :
    s.ledger.Lawful :=
  h.keeps (fun _ _ _ _ _ hs step => step.lawful hs) (lawful_new language b)

end System

end SnippetRunner.Adapter
