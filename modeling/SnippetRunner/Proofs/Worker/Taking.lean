import SnippetRunner.Proofs.Worker.Exchange

/-!
# Taking several messages

An execution that has not been looked at for a while finds several messages at once. It takes them one
after the other until one says that its request is done, and everything behind that one with it. What
is kept of them is said here without the loop, by the messages alone.
-/

namespace SnippetRunner.Worker

/-- With which fault, if any, a message says that a request is done. -/
def Message.done? (id : Nat) : Message → Option (Option Fault)
  | .event (.done n raw) => if n = id then some (raw.map Wire.RawFault.fault) else none
  | _ => none

theorem Message.done?_eq_none_iff {id : Nat} {m : Message} :
    m.done? id = none ↔ m.isDone id = false := by
  unfold done? isDone
  split
  · simp
  · simp

/-- What is kept of all messages that were taken for a request: of those behind the event that it is
done only raw text counts. -/
def captured (id : Nat) (b : Budget) (ms : List Message) : Output :=
  let before := ms.takeWhile fun m => !m.isDone id
  let behind := ms.dropWhile fun m => !m.isDone id
  let out := capture b (before.filterMap (Message.stdout? id))
  let err := capture b (before.filterMap (Message.stderr? id) ++ behind.filterMap Message.raw?)
  ⟨out.text, err.text, out.truncated || err.truncated⟩

namespace Execution

/-- Several messages, one after the other. The event that the request is done comes with everything
behind it. -/
def takeAll (e : Execution) : List Message → Execution × Option (Option Fault)
  | [] => (e, none)
  | m :: ms =>
    match e.receive m with
    | (e, none) => e.takeAll ms
    | (e, some fault) => (e.drain ms, some fault)

variable {id : Nat} {b : Budget} {taken : List Message}

/-- While nothing says that the request is done, everything that is taken counts. -/
theorem captured_of_isFirst (first : Exchange.IsFirst id taken) :
    captured id b taken = (gathered id b taken).transcript.output := by
  have all : ∀ m ∈ taken, (!m.isDone id) = true := fun m inside => by rw [first m inside]; rfl
  have before : ((taken ++ []).takeWhile fun m => !m.isDone id) = taken ++ [] :=
    List.takeWhile_append_of_pos all
  have behind : ((taken ++ []).dropWhile fun m => !Message.isDone id m) = [] :=
    List.dropWhile_append_of_pos all
  rw [List.append_nil] at before behind
  simp only [captured, before, behind, List.filterMap_nil, List.append_nil]
  rfl

/-- Afterwards the raw text counts that has arrived by then. -/
theorem captured_of_done (first : Exchange.IsFirst id taken) (raw : Option Wire.RawFault)
    (queued : List Message) :
    captured id b (taken ++ .event (.done id raw) :: queued) =
      ((gathered id b taken).drain queued).transcript.output := by
  have all : ∀ m ∈ taken, (!m.isDone id) = true := fun m inside => by rw [first m inside]; rfl
  have last : (!Message.isDone id (.event (.done id raw))) = false := by simp [Message.isDone]
  have before : ((taken ++ .event (.done id raw) :: queued).takeWhile fun m => !m.isDone id) = taken := by
    rw [List.takeWhile_append_of_pos all]
    simp [last]
  have behind : ((taken ++ .event (.done id raw) :: queued).dropWhile fun m => !m.isDone id) =
      .event (.done id raw) :: queued := by
    rw [List.dropWhile_append_of_pos all]
    simp [last]
  unfold captured
  rw [before, behind]
  exact (output_drain_gathered ⟨"", b, taken, raw, queued⟩ id).symm

/-- What an execution makes of several messages: it ends with the first of them that says that its
request is done, and its output is what is kept of all it has taken. -/
theorem takeAll_gathered (first : Exchange.IsFirst id taken) (ms : List Message) :
    ((gathered id b taken).takeAll ms).2 = ms.findSome? (Message.done? id) ∧
      ((gathered id b taken).takeAll ms).1.transcript.output = captured id b (taken ++ ms) ∧
      (ms.findSome? (Message.done? id) = none →
        ((gathered id b taken).takeAll ms).1 = gathered id b (taken ++ ms) ∧
          Exchange.IsFirst id (taken ++ ms)) := by
  induction ms generalizing taken with
  | nil =>
    rw [List.append_nil]
    exact ⟨rfl, (captured_of_isFirst first).symm, fun _ => ⟨rfl, first⟩⟩
  | cons m ms ih =>
    unfold takeAll
    cases done : m.isDone id with
    | false =>
      have longer : Exchange.IsFirst id (taken ++ [m]) := by
        intro m' inside
        rcases List.mem_append.1 inside with old | new
        · exact first m' old
        · rw [List.mem_singleton.1 new]
          exact done
      have next := ih longer
      rw [receive_gathered done, List.findSome?_cons, Message.done?_eq_none_iff.2 done]
      rwa [List.append_assoc, List.singleton_append] at next
    | true =>
      obtain ⟨raw, rfl⟩ := eq_done_of_isDone done
      have ends : Message.done? id (.event (.done id raw)) = some (raw.map Wire.RawFault.fault) :=
        if_pos rfl
      rw [receive_gathered_done, List.findSome?_cons, ends]
      refine ⟨rfl, (captured_of_done first raw ms).symm, ?_⟩
      intro none
      cases none

/-- An execution has gathered what was taken for the request with this number, and it goes on; before
the request is sent, nothing has been taken. -/
def Gathers (id : Nat) (b : Budget) (taken : List Message) : Option Execution → Prop
  | none => taken = []
  | some e => Exchange.IsFirst id taken ∧ e = gathered id b taken

/-- In either case it is as if the request had been sent. -/
theorem Gathers.getD {e : Option Execution} (h : Gathers id b taken e) :
    Exchange.IsFirst id taken ∧ e.getD (start id b) = gathered id b taken := by
  cases e with
  | none =>
    have nothing : taken = [] := h
    subst nothing
    exact ⟨nofun, rfl⟩
  | some e => exact h

end Execution

/-- A look finds that an execution has come to an end: it is to stop, or it has come to this by itself,
or its time is up; what stands first here goes before the others. -/
theorem Ending.choose_eq_some_iff {isCancelled isExpired : Bool} {worker : Option Ending}
    {ending : Ending} : choose isCancelled worker isExpired = some ending ↔
      (isCancelled = true ∧ ending = .terminated) ∨
      (isCancelled = false ∧ worker = some ending) ∨
      (isCancelled = false ∧ worker = none ∧ isExpired = true ∧ ending = .outOfTime) := by
  unfold choose
  cases isCancelled <;> cases worker <;> cases isExpired <;> simp [eq_comm]

end SnippetRunner.Worker
