import Mathlib.Logic.Equiv.Basic
import SnippetRunner.Proofs.Adapter.Steps
import SnippetRunner.Proofs.Worker.Exchange

/-!
# Who has which worker

A worker belongs to the adapter itself or to one call, and goes from one to the other. Nobody shares
a worker, so what has been done with it stands where its holder stands: its record fits the place of
the holder. Most steps only carry workers from one holder to another, or lose them, which changes
nothing of their records.
-/

namespace SnippetRunner.Adapter

open Worker (Deed Listening Idle Lent Working Finished Orderly)

/-- The record of a worker, and the number that its next request gets, fit the place where the call
stands that has the worker. -/
def Call.Fits (next : Nat) (r : List Deed) : Call → Prop
  | .readying _ _ _ => Listening next r
  | .started _ _ => Idle next r
  | .executing _ _ x none => Lent next x.code x.budget r
  | .executing _ _ x (some e) => Working next x.code x.budget e r
  | .executed _ _ x (some e) (.done fault) => Finished next x.budget e fault r
  | .executed _ _ _ none (.done _) => False
  | _ => True

/-- What fits the one place fits the other one. -/
def Call.Leads (k k' : Call) : Prop := ∀ next r, k.Fits next r → k'.Fits next r

namespace System

variable {s s' : System} {c d : CallId} {w : WorkerId} {k k' : Call} {r : Option Reply}

/-- Where a holder stands that may have a worker: the adapter itself stands like a call whose start
has just come to its end. -/
def place? (s : System) : Option CallId → Option Call
  | none => s.state.worker.map fun w => .started s.state.ticket (.ok w)
  | some c => s.call? c

/-- A holder has a worker. -/
def Holds (s : System) (h : Option CallId) (k : Call) (w : WorkerId) : Prop :=
  s.place? h = some k ∧ k.worker? = some w

/-- Where a call has taken a step, it has what its new place gives it, and the others have what they
had. -/
theorem Holds.of_setCall {h : Option CallId} {q : Call} (holds : (s.setCall c k').Holds h q w) :
    (h = some c ∧ q = k') ∨ (h ≠ some c ∧ s.Holds h q w) := by
  obtain ⟨hq, hw⟩ := holds
  cases h with
  | none => exact .inr ⟨by simp, hq, hw⟩
  | some d =>
    have hd : (s.setCall c k').call? d = some q := hq
    by_cases same : d = c
    · subst same
      rw [call?_setCall_self] at hd
      exact .inl ⟨rfl, (Option.some.inj hd).symm⟩
    · rw [call?_setCall_of_ne _ _ same] at hd
      exact .inr ⟨by simpa using same, hd, hw⟩

/-- Whoever has a worker after a step has it from somebody who had it before the step, and each from
somebody else; and the record of the worker fits the new place. -/
def Carries (s s' : System) : Prop :=
  ∃ f : Option CallId → Option CallId, Function.Injective f ∧
    ∀ h k' w, s'.Holds h k' w → ∃ k, s.Holds (f h) k w ∧ k.Leads k'

namespace Carries

/-- Everybody keeps what they have, or loses it. -/
theorem of_kept (slot : ∀ w, s'.state.worker = some w → s.state.worker = some w)
    (calls : ∀ d k' w, s'.call? d = some k' → k'.worker? = some w →
      ∃ k, s.call? d = some k ∧ k.worker? = some w ∧ k.Leads k') : Carries s s' := by
  refine ⟨id, Function.injective_id, ?_⟩
  rintro (_ | d) k' w ⟨hk, hw⟩
  · obtain ⟨v, hv, rfl⟩ := Option.map_eq_some_iff.1 hk
    have same : v = w := Option.some.inj hw
    subst same
    exact ⟨.started s.state.ticket (.ok v), ⟨by simp [place?, slot v hv], rfl⟩, fun _ _ fits => fits⟩
  · obtain ⟨k, hk, hw, leads⟩ := calls d k' w hk hw
    exact ⟨k, ⟨hk, hw⟩, leads⟩

/-- Nothing changes about who has a worker. -/
theorem of_eq (worker : s'.state.worker = s.state.worker) (calls : ∀ d, s'.call? d = s.call? d) :
    Carries s s' :=
  of_kept (fun _ hw => worker ▸ hw) fun d k' _ hk hw =>
    ⟨k', (calls d).symm.trans hk, hw, fun _ _ fits => fits⟩

/-- A call goes, and its worker with it. -/
theorem endCall (worker : ∀ w, s'.state.worker = some w → s.state.worker = some w)
    (calls : ∀ d, s'.call? d = (s.endCall c).call? d) : Carries s s' := by
  refine of_kept worker fun d k' w hk hw => ?_
  rw [calls, call?_endCall] at hk
  split at hk
  · cases hk
  · exact ⟨k', hk, hw, fun _ _ fits => fits⟩

/-- A call takes a step that brings it no other worker. -/
theorem setCall (worker : ∀ w, s'.state.worker = some w → s.state.worker = some w)
    (calls : ∀ d, s'.call? d = (s.setCall c k').call? d)
    (kept : ∀ w, k'.worker? = some w → ∃ k, s.call? c = some k ∧ k.worker? = some w ∧ k.Leads k') :
    Carries s s' := by
  refine of_kept worker fun d q w hq hw => ?_
  rw [calls] at hq
  by_cases same : d = c
  · subst same
    rw [call?_setCall_self] at hq
    cases hq
    exact kept w hw
  · rw [call?_setCall_of_ne _ _ same] at hq
    exact ⟨q, hq, hw, fun _ _ fits => fits⟩

/-- A call takes a step after which it has no worker. -/
theorem setCall_of_none (worker : ∀ w, s'.state.worker = some w → s.state.worker = some w)
    (calls : ∀ d, s'.call? d = (s.setCall c k').call? d) (none : k'.worker? = none) :
    Carries s s' :=
  setCall worker calls fun w hw => by
    rw [none] at hw
    cases hw

/-- A call gives its worker to the adapter, and goes. -/
theorem give (stands : s.call? c = some k) (has : k.worker? = some w)
    (leads : ∀ t, k.Leads (.started t (.ok w))) (worker : s'.state.worker = some w)
    (calls : ∀ d, s'.call? d = (s.endCall c).call? d) : Carries s s' := by
  -- the adapter has it from the call, and the call, which is gone, would have it from the adapter
  refine ⟨Equiv.swap none (some c), Equiv.injective _, ?_⟩
  rintro (_ | d) k' v ⟨hk, hv⟩
  · rw [place?, worker, Option.map_some, Option.some.injEq] at hk
    subst hk
    have same : w = v := Option.some.inj hv
    subst same
    rw [Equiv.swap_apply_left]
    exact ⟨k, ⟨stands, has⟩, leads _⟩
  · have hd : (s.endCall c).call? d = some k' := (calls d).symm.trans hk
    rw [call?_endCall] at hd
    split at hd
    · cases hd
    next other =>
      rw [Equiv.swap_apply_of_ne_of_ne (by simp) (by simpa using other)]
      exact ⟨k', ⟨hd, hv⟩, fun _ _ fits => fits⟩

/-- A call gets its worker from the adapter. -/
theorem get (had : s.state.worker = some w) (has : k'.worker? = some w)
    (leads : ∀ t, Call.Leads (.started t (.ok w)) k') (worker : s'.state.worker = none)
    (calls : ∀ d, s'.call? d = (s.setCall c k').call? d) : Carries s s' := by
  -- the call has it from the adapter, which has nothing more
  refine ⟨Equiv.swap none (some c), Equiv.injective _, ?_⟩
  rintro (_ | d) q v ⟨hq, hv⟩
  · rw [place?, worker] at hq
    cases hq
  · have hd : (s.setCall c k').call? d = some q := (calls d).symm.trans hq
    by_cases same : d = c
    · subst same
      rw [call?_setCall_self] at hd
      cases hd
      have same : w = v := Option.some.inj (has.symm.trans hv)
      subst same
      rw [Equiv.swap_apply_right]
      exact ⟨.started s.state.ticket (.ok w), ⟨by simp [place?, had], rfl⟩, leads _⟩
    · rw [call?_setCall_of_ne _ _ same] at hd
      rw [Equiv.swap_apply_of_ne_of_ne (by simp) (by simpa using same)]
      exact ⟨q, ⟨hd, hv⟩, fun _ _ fits => fits⟩

/-- A call goes whose start has ended; its worker goes to the adapter, or is lost. -/
theorem leave {u : Ticket} {q : Except Failure WorkerId}
    (stands : s.call? c = some (.started u q))
    (state : s'.state = (s.state.leave s.language u q).2)
    (calls : ∀ d, s'.call? d = (s.endCall c).call? d) : Carries s s' := by
  cases outdated : s.state.isOutdated u with
  | true =>
    rw [State.leave_of_outdated outdated] at state
    exact endCall (fun w hw => by rwa [state] at hw) calls
  | false =>
    cases q with
    | error e =>
      rw [State.leave_of_error outdated] at state
      exact endCall (fun w hw => by rwa [state] at hw) calls
    | ok w =>
      rw [State.leave_of_ok outdated] at state
      exact give stands rfl (fun _ _ _ fits => fits) (by rw [state]) calls

/-- A call brings its worker back, which the adapter may refuse. -/
theorem checkIn {u : Ticket} (stands : s.call? c = some k) (has : k.worker? = some w)
    (leads : ∀ t, k.Leads (.started t (.ok w))) (state : s'.state = s.state.checkIn w u)
    (calls : ∀ d, s'.call? d = (s.endCall c).call? d) : Carries s s' := by
  cases awaits : s.state.awaits u with
  | true =>
    rw [State.checkIn_of_awaits awaits] at state
    exact give stands has leads (by rw [state]) calls
  | false =>
    rw [State.checkIn_of_not_awaits awaits] at state
    exact endCall (fun w hw => by rwa [state] at hw) calls

end Carries

end System

end SnippetRunner.Adapter
