import SnippetRunner.Worker.Desk

/-!
# Exchanges with a worker

What an execution is to make of the messages of a worker, said without its loop: only the texts that
carry the number of its request count for its output, besides the raw text of the other pipe, and
only the event that its request is done ends it. An exchange is a request with the budget of the
call that makes it and the messages taken for it; the record of everything that the host has done with a
worker is a row of exchanges with the numbers from one on, of which the last one may not have come to
its end.
-/

namespace SnippetRunner.Worker

/-! ## What counts for a request -/

/-- The text that a message adds to the standard output of a request. -/
def Message.stdout? (id : Nat) : Message → Option String
  | .event (.output .stdout n text) => if n = id then some text else none
  | _ => none

/-- The text that a message adds to the standard error of a request: raw text counts for whichever
request is at hand. -/
def Message.stderr? (id : Nat) : Message → Option String
  | .event (.output .stderr n text) => if n = id then some text else none
  | .event _ => none
  | .stderr text => some text

/-- The raw text of a message. -/
def Message.raw? : Message → Option String
  | .stderr text => some text
  | .event _ => none

/-- The message says that a request is done. -/
def Message.isDone (id : Nat) : Message → Bool
  | .event (.done n _) => n == id
  | _ => false

/-- An event that counts for no request with this number: it carries another one, or says that the
worker is ready. -/
def Message.isStale (id : Nat) : Message → Bool
  | .event (.ready _) => true
  | .event (.output _ n _) => n != id
  | .event (.done n _) => n != id
  | .stderr _ => false

/-- What a stream holds of some texts that are written to it in this order. -/
def capture (b : Budget) (texts : List String) : Held :=
  texts.foldl (Held.write b.maxLines b.maxBytes) .empty

/-- A request with the budget of its call, the messages that were taken for it one by one, the fault
that it was done with, and the messages that were queued at that moment. -/
structure Exchange where
  code : String
  budget : Budget
  taken : List Message
  fault : Option Wire.RawFault
  queued : List Message

namespace Exchange

/-- None of the messages before the last one has said that the request is done. -/
def IsFirst (id : Nat) (taken : List Message) : Prop := ∀ m ∈ taken, m.isDone id = false

/-- What is held of the standard output. -/
def out (x : Exchange) (id : Nat) : Held := capture x.budget (x.taken.filterMap (Message.stdout? id))

/-- What is held of the standard error. -/
def err (x : Exchange) (id : Nat) : Held :=
  capture x.budget (x.taken.filterMap (Message.stderr? id) ++ x.queued.filterMap Message.raw?)

/-- The output of the execution. -/
def output (x : Exchange) (id : Nat) : Output :=
  ⟨(x.out id).text, (x.err id).text, (x.out id).truncated || (x.err id).truncated⟩

/-- The report on the execution. -/
def report (x : Exchange) (id : Nat) : Report :=
  .completed (x.output id) (x.fault.map Wire.RawFault.fault)

/-- The exchange without the events that count for other requests or for none. -/
def fresh (x : Exchange) (id : Nat) : Exchange :=
  { x with taken := x.taken.filter fun m => !m.isStale id }

end Exchange

/-! ## Stale events -/

section
variable {id : Nat} {m : Message}

theorem Message.stdout?_of_isStale (h : m.isStale id = true) : m.stdout? id = none := by
  unfold isStale at h
  split at h
  · rfl
  next c n text =>
    have other : n ≠ id := by simpa using h
    cases c <;> simp [stdout?, other]
  · rfl
  · cases h

theorem Message.stderr?_of_isStale (h : m.isStale id = true) : m.stderr? id = none := by
  unfold isStale at h
  split at h
  · rfl
  next c n text =>
    have other : n ≠ id := by simpa using h
    cases c <;> simp [stderr?, other]
  · rfl
  · cases h

/-- Leaving out messages that give nothing leaves what the others give. -/
theorem filterMap_filter_of_none {α β : Type} {f : α → Option β} {p : α → Bool} (l : List α)
    (h : ∀ a, p a = true → f a = none) : (l.filter fun a => !p a).filterMap f = l.filterMap f := by
  rw [List.filterMap_filter]
  refine congrArg (List.filterMap · l) (funext fun a => ?_)
  cases hp : p a with
  | false => rfl
  | true => exact (h a hp).symm

/-- A stale event changes nothing about the report. -/
theorem Exchange.report_fresh (x : Exchange) (id : Nat) : (x.fresh id).report id = x.report id := by
  have out : (x.fresh id).out id = x.out id :=
    congrArg (capture x.budget)
      (filterMap_filter_of_none x.taken fun _ => Message.stdout?_of_isStale)
  have err : (x.fresh id).err id = x.err id :=
    congrArg (fun texts => capture x.budget (texts ++ x.queued.filterMap Message.raw?))
      (filterMap_filter_of_none x.taken fun _ => Message.stderr?_of_isStale)
  unfold report output
  rw [out, err]
  rfl

end

/-! ## What an execution makes of its messages -/

theorem capture_append (b : Budget) (texts more : List String) :
    capture b (texts ++ more) = more.foldl (Held.write b.maxLines b.maxBytes) (capture b texts) :=
  List.foldl_append

/-- One text more. -/
theorem capture_concat (b : Budget) (texts : List String) (text : String) :
    capture b (texts ++ [text]) = (capture b texts).write b.maxLines b.maxBytes text :=
  capture_append b texts [text]

namespace Execution

variable {id : Nat} {b : Budget} {taken : List Message} {m : Message} {e : Execution}

/-- The execution of a request for which these messages have been taken. -/
def gathered (id : Nat) (b : Budget) (taken : List Message) : Execution :=
  ⟨id, capture b (taken.filterMap (Message.stdout? id)),
    capture b (taken.filterMap (Message.stderr? id)), b.maxLines, b.maxBytes⟩

/-- A message that adds no text leaves the streams as they are. -/
theorem gathered_concat_of_silent (out : m.stdout? id = none) (err : m.stderr? id = none) :
    gathered id b (taken ++ [m]) = gathered id b taken := by
  unfold gathered
  rw [List.filterMap_append, List.filterMap_append]
  simp [out, err]

/-- A message that does not say that the request is done is taken, and the execution goes on. -/
theorem receive_gathered (h : m.isDone id = false) :
    (gathered id b taken).receive m = (gathered id b (taken ++ [m]), none) := by
  cases m with
  | stderr text =>
    simp [receive, gathered, write, Transcript.write, List.filterMap_cons, Message.stdout?,
      Message.stderr?, capture_concat]
  | event ev =>
    cases ev with
    | ready version =>
      rw [gathered_concat_of_silent rfl rfl]
      rfl
    | done n fault =>
      have other : n ≠ id := by simpa [Message.isDone] using h
      rw [gathered_concat_of_silent rfl rfl]
      exact if_neg other
    | output c n text =>
      by_cases same : n = id
      · subst same
        cases c <;> simp [receive, gathered, write, Transcript.write, List.filterMap_cons,
          Message.stdout?, Message.stderr?, capture_concat]
      · have silent : gathered id b (taken ++ [.event (.output c n text)]) = gathered id b taken := by
          apply gathered_concat_of_silent <;> cases c <;>
            simp [Message.stdout?, Message.stderr?, same]
        rw [silent]
        exact if_neg same

/-- The event that the request is done ends the execution. -/
theorem receive_gathered_done (fault : Option Wire.RawFault) :
    (gathered id b taken).receive (.event (.done id fault)) =
      (gathered id b taken, some (fault.map Wire.RawFault.fault)) :=
  if_pos rfl

/-- A message that says that a request is done is the event that it is. -/
theorem eq_done_of_isDone (h : m.isDone id = true) : ∃ raw, m = .event (.done id raw) := by
  unfold Message.isDone at h
  split at h
  · rw [beq_iff_eq] at h
    exact ⟨_, by rw [h]⟩
  · cases h

/-- A stale event neither changes an execution nor ends it. -/
theorem receive_of_isStale (h : m.isStale e.id = true) : e.receive m = (e, none) := by
  unfold Message.isStale at h
  split at h
  · rfl
  next c n text =>
    have other : n ≠ e.id := by simpa using h
    exact if_neg other
  next n fault =>
    have other : n ≠ e.id := by simpa using h
    exact if_neg other
  · cases h

/-- An execution that goes on after a message has gathered it. -/
theorem gathered_of_receive (h : (gathered id b taken).receive m = (e, none)) :
    m.isDone id = false ∧ e = gathered id b (taken ++ [m]) := by
  cases done : m.isDone id with
  | false =>
    rw [receive_gathered done] at h
    exact ⟨rfl, (Prod.mk.inj h).1.symm⟩
  | true =>
    obtain ⟨raw, rfl⟩ := eq_done_of_isDone done
    rw [receive_gathered_done] at h
    cases h

/-- An execution ends with the event that its own request is done, and with no other message. -/
theorem done_of_receive {fault : Option Fault}
    (h : (gathered id b taken).receive m = (e, some fault)) :
    ∃ raw, m = .event (.done id raw) ∧ fault = raw.map Wire.RawFault.fault ∧
      e = gathered id b taken := by
  cases done : m.isDone id with
  | false =>
    rw [receive_gathered done] at h
    cases h
  | true =>
    obtain ⟨raw, rfl⟩ := eq_done_of_isDone done
    rw [receive_gathered_done] at h
    cases h
    exact ⟨raw, rfl, rfl, rfl⟩

/-- Of what is queued when the request is done, only the raw text is kept, and goes to the standard
error. -/
theorem drain_eq (e : Execution) (ms : List Message) :
    e.drain ms = ⟨e.id, { e.transcript with
      err := (ms.filterMap Message.raw?).foldl
        (Held.write e.transcript.maxLines e.transcript.maxBytes) e.transcript.err }⟩ := by
  induction ms generalizing e with
  | nil => rfl
  | cons m ms ih =>
    cases m with
    | event ev => exact ih e
    | stderr text => exact ih (e.write .stderr text)

/-- The output of an execution that has come to its end. -/
theorem output_drain_gathered (x : Exchange) (id : Nat) :
    ((gathered id x.budget x.taken).drain x.queued).transcript.output = x.output id := by
  rw [drain_eq]
  unfold gathered Transcript.output Exchange.output Exchange.out Exchange.err
  rw [capture_append]

end Execution

/-! ## Records -/

/-- What the host does with a worker, and what it gets from it. -/
inductive Deed where
  /-- A message arrives. -/
  | arrived (m : Message)
  /-- A start takes a message. -/
  | heard (m : Message)
  /-- A call gets the worker to execute this, under this budget. -/
  | lent (code : String) (b : Budget)
  /-- A request is sent. -/
  | sent (q : Wire.Request)
  /-- An execution takes a message. -/
  | took (m : Message)
  /-- An execution takes everything that is queued. -/
  | drained (ms : List Message)
  /-- A call returns with the report on an execution. -/
  | reported (r : Report)

namespace Deed

/-- The host does this, and does not merely get it. -/
def isOwn : Deed → Bool
  | .arrived _ => false
  | _ => true

/-- The message that arrives. -/
def arrival? : Deed → Option Message
  | .arrived m => some m
  | _ => none

/-- The messages that are taken. -/
def taken : Deed → List Message
  | .heard m | .took m => [m]
  | .drained ms => ms
  | _ => []

/-- The request that is sent. -/
def request? : Deed → Option Wire.Request
  | .sent q => some q
  | _ => none

end Deed

/-- The messages that have arrived. -/
def arrivals (r : List Deed) : List Message := r.filterMap Deed.arrival?

/-- The messages that have been taken, in any way. -/
def takings (r : List Deed) : List Message := r.flatMap Deed.taken

/-- The requests that have been sent. -/
def requests (r : List Deed) : List Wire.Request := r.filterMap Deed.request?

/-- What the host does in an exchange. The budget of the exchange is the one of the call that gets the
worker for it. -/
def Exchange.deeds (x : Exchange) (id : Nat) : List Deed :=
  .lent x.code x.budget :: .sent ⟨id, x.code⟩ :: x.taken.map .took ++
    [.took (.event (.done id x.fault)), .drained x.queued]

/-- The record of a worker with which so many exchanges have come to their end, with the numbers from
one on. Each of them begins after the one before it is done and has been reported. -/
inductive Complete : Nat → List Deed → Prop where
  | start (heard : List Message) : Complete 0 (heard.map .heard)
  | exchange {n : Nat} {r : List Deed} (h : Complete n r) (x : Exchange)
    (first : Exchange.IsFirst (n + 1) x.taken) :
    Complete (n + 1) (r ++ (x.deeds (n + 1) ++ [.reported (x.report (n + 1))]))

/-- What may follow: nothing, or an exchange with the next number that has not come to its end. -/
inductive Rest (id : Nat) : List Deed → Prop where
  | none : Rest id []
  | unsent (code : String) (b : Budget) : Rest id [.lent code b]
  | unfinished (code : String) (b : Budget) (taken : List Message)
    (first : Exchange.IsFirst id taken) :
    Rest id (.lent code b :: .sent ⟨id, code⟩ :: taken.map .took)
  | finished (x : Exchange) (first : Exchange.IsFirst id x.taken) : Rest id (x.deeds id)

/-- A record of exchanges, one after the other. -/
def Orderly (r : List Deed) : Prop :=
  ∃ n done rest, Complete n done ∧ Rest (n + 1) rest ∧ r = done ++ rest

section
variable {n id : Nat} {r rest : List Deed}

theorem requests_append (r r' : List Deed) : requests (r ++ r') = requests r ++ requests r' :=
  List.filterMap_append

/-- What arrives is no request. -/
theorem requests_own (r : List Deed) : requests (r.filter Deed.isOwn) = requests r := by
  unfold requests
  rw [List.filterMap_filter]
  refine congrArg (List.filterMap · r) (funext fun d => ?_)
  cases d <;> rfl

/-- An exchange has one request. -/
theorem requests_deeds (x : Exchange) (id : Nat) : requests (x.deeds id) = [⟨id, x.code⟩] := by
  simp [requests, Exchange.deeds, Deed.request?, List.filterMap_cons]

/-- The requests of complete exchanges have the numbers from one on. -/
theorem Complete.numbered (h : Complete n r) :
    (requests r).map Wire.Request.id = List.range' 1 n := by
  induction h with
  | start heard => simp [requests, Deed.request?]
  | @exchange n r _ x _ ih =>
    have last : requests [.reported (x.report (n + 1))] = [] := rfl
    rw [requests_append, requests_append, requests_deeds, last, List.map_append, ih,
      List.range'_concat]
    simp [Nat.add_comm]

/-- What follows has at most one request, with the next number. -/
theorem Rest.numbered (h : Rest id rest) :
    requests rest = [] ∨ ∃ code, requests rest = [⟨id, code⟩] := by
  cases h with
  | none => exact .inl rfl
  | unsent _ _ => exact .inl rfl
  | unfinished code b taken _ =>
    refine .inr ⟨code, ?_⟩
    simp [requests, Deed.request?, List.filterMap_cons]
  | finished x _ => exact .inr ⟨x.code, requests_deeds x id⟩

/-- In an orderly record the requests have the numbers from one on. -/
theorem Orderly.numbered (h : Orderly r) :
    (requests r).map Wire.Request.id = List.range' 1 (requests r).length := by
  obtain ⟨n, done, rest, complete, follows, rfl⟩ := h
  have length : (requests done).length = n := by
    have numbers := congrArg List.length complete.numbered
    simpa using numbers
  -- the complete exchanges take up the numbers before the last one
  rw [requests_append, List.map_append, complete.numbered, List.length_append, length]
  rcases follows.numbered with none | ⟨code, one⟩
  · simp [none]
  · rw [one, List.length_singleton, List.range'_concat]
    simp [Nat.add_comm]

end

/-! ## Where a record stands -/

/-- The worker has not said that it is ready. -/
def Listening (next : Nat) (r : List Deed) : Prop :=
  next = 1 ∧ ∃ heard : List Message, r = heard.map .heard

/-- The worker waits for a request, which gets this number. -/
def Idle (next : Nat) (r : List Deed) : Prop := ∃ n, Complete n r ∧ next = n + 1

/-- A call has got the worker, and its request, which gets this number, has not been sent. -/
def Lent (next : Nat) (code : String) (b : Budget) (r : List Deed) : Prop :=
  ∃ n done, Complete n done ∧ next = n + 1 ∧ r = done ++ [.lent code b]

/-- The worker executes a request. -/
def Working (next : Nat) (code : String) (b : Budget) (e : Execution) (r : List Deed) : Prop :=
  ∃ n done taken, Complete n done ∧ Exchange.IsFirst (n + 1) taken ∧ next = n + 2 ∧
    e = .gathered (n + 1) b taken ∧
    r = done ++ .lent code b :: .sent ⟨n + 1, code⟩ :: taken.map .took

/-- The request is done, and has not been reported. -/
def Finished (next : Nat) (b : Budget) (e : Execution) (fault : Option Fault) (r : List Deed) :
    Prop :=
  ∃ n done, ∃ x : Exchange, Complete n done ∧ Exchange.IsFirst (n + 1) x.taken ∧ next = n + 2 ∧
    x.budget = b ∧ e.transcript.output = x.output (n + 1) ∧
    fault = x.fault.map Wire.RawFault.fault ∧ r = done ++ x.deeds (n + 1)

section
variable {next : Nat} {code : String} {b : Budget} {e e' : Execution} {fault : Option Fault}
  {m : Message} {ms : List Message} {r : List Deed}

theorem Listening.start : Listening 1 [] := ⟨rfl, [], rfl⟩

/-- A start takes a message. -/
theorem Listening.hear (h : Listening next r) (m : Message) : Listening next (r ++ [.heard m]) := by
  obtain ⟨hn, heard, rfl⟩ := h
  exact ⟨hn, heard ++ [m], by simp⟩

/-- A worker that is ready waits for its first request. -/
theorem Listening.idle (h : Listening next r) : Idle next r := by
  obtain ⟨hn, heard, rfl⟩ := h
  exact ⟨0, .start heard, hn⟩

/-- A call gets the worker. -/
theorem Idle.lend (h : Idle next r) (code : String) (b : Budget) :
    Lent next code b (r ++ [.lent code b]) := by
  obtain ⟨n, complete, rfl⟩ := h
  exact ⟨n, r, complete, rfl, rfl⟩

/-- Its request is sent. -/
theorem Lent.send (h : Lent next code b r) :
    Working (next + 1) code b (.start next b) (r ++ [.sent ⟨next, code⟩]) := by
  obtain ⟨n, done, complete, rfl, rfl⟩ := h
  exact ⟨n, done, [], complete, by simp [Exchange.IsFirst], rfl, rfl, by simp⟩

/-- An execution takes a message and goes on. -/
theorem Working.take (h : Working next code b e r) (hm : e.receive m = (e', none)) :
    Working next code b e' (r ++ [.took m]) := by
  obtain ⟨n, done, taken, complete, first, hn, rfl, rfl⟩ := h
  obtain ⟨other, rfl⟩ := Execution.gathered_of_receive hm
  refine ⟨n, done, taken ++ [m], complete, ?_, hn, rfl, by simp⟩
  intro m' hm'
  rcases List.mem_append.1 hm' with old | new
  · exact first m' old
  · rw [List.mem_singleton.1 new]
    exact other

/-- An execution takes the event that its request is done, and what is queued behind it. -/
theorem Working.finish (h : Working next code b e r) (hm : e.receive m = (e', some fault)) :
    Finished next b (e'.drain ms) fault (r ++ [.took m, .drained ms]) := by
  obtain ⟨n, done, taken, complete, first, hn, rfl, rfl⟩ := h
  obtain ⟨raw, rfl, rfl, rfl⟩ := Execution.done_of_receive hm
  refine ⟨n, done, ⟨code, b, taken, raw, ms⟩, complete, first, hn, rfl, ?_, rfl, ?_⟩
  · exact Execution.output_drain_gathered ⟨code, b, taken, raw, ms⟩ (n + 1)
  · simp [Exchange.deeds]

/-- The execution is reported, and the worker waits for the next request. -/
theorem Finished.report (h : Finished next b e fault r) :
    Idle next (r ++ [.reported ((Ending.done fault).report b e.transcript.output)]) := by
  obtain ⟨n, done, x, complete, first, hn, rfl, output, rfl, rfl⟩ := h
  refine ⟨n + 1, ?_, hn⟩
  have same : (Ending.done (x.fault.map Wire.RawFault.fault)).report x.budget e.transcript.output =
      x.report (n + 1) := by
    rw [output]
    rfl
  -- with its report the exchange joins the complete ones
  rw [same, List.append_assoc]
  exact .exchange complete x first

/-- Wherever a record stands, it is orderly. -/
theorem Listening.orderly (h : Listening next r) : Orderly r := by
  obtain ⟨-, heard, rfl⟩ := h
  exact ⟨0, _, [], .start heard, .none, by simp⟩

theorem Idle.orderly (h : Idle next r) : Orderly r := by
  obtain ⟨n, complete, -⟩ := h
  exact ⟨n, r, [], complete, .none, by simp⟩

theorem Lent.orderly (h : Lent next code b r) : Orderly r := by
  obtain ⟨n, done, complete, -, rfl⟩ := h
  exact ⟨n, done, _, complete, .unsent code b, rfl⟩

theorem Working.orderly (h : Working next code b e r) : Orderly r := by
  obtain ⟨n, done, taken, complete, first, -, -, rfl⟩ := h
  exact ⟨n, done, _, complete, .unfinished code b taken first, rfl⟩

theorem Finished.orderly (h : Finished next b e fault r) : Orderly r := by
  obtain ⟨n, done, x, complete, first, -, -, -, -, rfl⟩ := h
  exact ⟨n, done, _, complete, .finished x first, rfl⟩

end

/-! ## Nothing is lost, and nothing counts twice -/

/-- Whenever everything queued was taken, it was right after a message had been taken, and it was
all that had arrived until then behind that message. -/
def Emptied (r : List Deed) : Prop :=
  ∀ before ms, before ++ [.drained ms] <+: r →
    ∃ earlier m, before = earlier ++ [.took m] ∧ arrivals earlier = takings earlier ++ m :: ms

/-- The record of a worker agrees with its desk: every message that has arrived has been taken once,
in the order in which they arrived, or still waits; and the requests are those that have been sent. -/
structure Faithful (b : Desk) (r : List Deed) : Prop where
  arrived : arrivals r = takings r ++ b.messages
  sent : requests r = b.sent
  emptied : Emptied r

section
variable {b : Desk} {r : List Deed} {d : Deed} {m : Message} {ms : List Message}

theorem arrivals_append (r r' : List Deed) : arrivals (r ++ r') = arrivals r ++ arrivals r' :=
  List.filterMap_append

theorem takings_append (r r' : List Deed) : takings (r ++ r') = takings r ++ takings r' :=
  List.flatMap_append

theorem Emptied.concat (h : Emptied r) (hd : ∀ ms, d ≠ .drained ms) : Emptied (r ++ [d]) := by
  intro before ms hp
  rcases List.prefix_concat_iff.1 hp with whole | shorter
  · have last : Deed.drained ms = d := by simpa using congrArg List.getLast? whole
    exact absurd last.symm (hd ms)
  · exact h before ms shorter

theorem Emptied.finish (h : Emptied r) (hr : arrivals r = takings r ++ m :: ms) :
    Emptied (r ++ [.took m, .drained ms]) := by
  intro before ms' hp
  have split : r ++ [.took m, .drained ms] = (r ++ [.took m]) ++ [.drained ms] := by simp
  rw [split] at hp
  rcases List.prefix_concat_iff.1 hp with whole | shorter
  · obtain ⟨rfl, last⟩ := List.append_inj' whole rfl
    cases last
    exact ⟨r, m, rfl, hr⟩
  · exact h.concat (by simp) before ms' shorter

namespace Faithful

/-- Nothing has been done with a worker that has just been started. -/
theorem start : Faithful .start [] := by
  refine ⟨rfl, rfl, ?_⟩
  intro before ms hp
  simp at hp

/-- More is done with the worker: the queue gets what arrives and gives what is taken. -/
theorem more {b' : Desk} {ds : List Deed} (h : Faithful b r)
    (arrived : b.messages ++ arrivals ds = takings ds ++ b'.messages)
    (sent : b'.sent = b.sent ++ requests ds) (emptied : Emptied (r ++ ds)) :
    Faithful b' (r ++ ds) := by
  refine ⟨?_, ?_, emptied⟩
  · rw [arrivals_append, takings_append, h.arrived, List.append_assoc, List.append_assoc, arrived]
  · rw [requests_append, h.sent, sent]

theorem deliver (h : Faithful b r) (m : Message) :
    Faithful (b.deliver m) (r ++ [.arrived m]) :=
  h.more rfl (List.append_nil _).symm (h.emptied.concat (by simp))

theorem hear (h : Faithful b r) (hms : b.messages = m :: ms) :
    Faithful { b with messages := ms } (r ++ [.heard m]) :=
  h.more (hms ▸ List.append_nil _) (List.append_nil _).symm (h.emptied.concat (by simp))

theorem lend (h : Faithful b r) (code : String) (budget : Budget) :
    Faithful b (r ++ [.lent code budget]) :=
  h.more (List.append_nil _) (List.append_nil _).symm (h.emptied.concat (by simp))

theorem send (h : Faithful b r) (code : String) (budget : Budget) :
    Faithful (b.send code budget).2 (r ++ [.sent ⟨b.nextRequest, code⟩]) :=
  h.more (List.append_nil _) rfl (h.emptied.concat (by simp))

theorem take (h : Faithful b r) (hms : b.messages = m :: ms) :
    Faithful { b with messages := ms } (r ++ [.took m]) :=
  h.more (hms ▸ List.append_nil _) (List.append_nil _).symm (h.emptied.concat (by simp))

/-- A message is taken, and everything behind it. -/
theorem finish (h : Faithful b r) (hms : b.messages = m :: ms) :
    Faithful { b with messages := [] } (r ++ [.took m, .drained ms]) := by
  have waits : arrivals r = takings r ++ m :: ms := hms ▸ h.arrived
  refine h.more ?_ (List.append_nil _).symm (h.emptied.finish waits)
  simp [hms, arrivals, takings, Deed.arrival?, Deed.taken]

theorem report (h : Faithful b r) (q : Report) : Faithful b (r ++ [.reported q]) :=
  h.more (List.append_nil _) (List.append_nil _).symm (h.emptied.concat (by simp))

end Faithful

end

end SnippetRunner.Worker
