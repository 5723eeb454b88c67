import SnippetRunner.Proofs.Interpreter.Launchable

/-!
# What the probe cache returns

A cache is asked again and again, by any probe, for any binary, on a host that changes in between, and now
and then it is emptied. Every run of a probe that this leads to is noted, so that what the cache returns can
be compared with what the runs have told.

Two things hold after any use. What is in the cache was told by a run since it was last emptied. And what a
run has told since then is what the cache finds for its binary as it was, so no run with success happens
there again. The cache does not ask who has made a run: whichever probe is the first one to get an answer
from a binary has answered for all.
-/

namespace SnippetRunner.Interpreter

open SnippetRunner (Path)

/-! ## The cache and the runs of probes -/

/-- A run of a probe. -/
structure Run where
  probe : Probe
  host : Host
  binary : Path

/-- The run got this answer from the binary as it was when it had last changed then. -/
structure Run.Tells (r : Run) (binary : Path) (modified : Nat) (profile : Profile) : Prop where
  binary : r.binary.same binary = true
  modified : r.host.tree.modified r.binary = .ok modified
  answer : r.probe.ask r.host r.binary = .ok profile

/-- No two of the runs have told something of a binary as it was at one moment. -/
def AtMostOnce (runs : List Run) : Prop :=
  runs.Pairwise fun r later => ∀ binary modified profile other,
    r.Tells binary modified profile → ¬ later.Tells binary modified other

/-- The answer of a binary as the cache gets it, where running the probe is an act of any kind. -/
def Cache.getOrRun {m : Type → Type} [Monad m] (c : Cache) (h : Host)
    (run : m (Except ProbeFailure Profile)) (binary : Path) :
    m (Except ProbeFailure Profile × Cache) := do
  match h.tree.modified binary with
  | .error e => pure (.error (.io e.message), c)
  | .ok modified =>
    match c.get? binary modified with
    | some profile => pure (.ok profile, c)
    | none =>
      match ← run with
      | .error e => pure (.error e, c)
      | .ok profile => pure (.ok profile, c.insert binary modified profile)

/-- A cache, and the runs since it was last emptied. -/
structure Record where
  cache : Cache
  runs : List Run

/-- What happens to a cache: someone asks for an answer, on the host as it is by then, or it is emptied. -/
inductive Use where
  | ask (p : Probe) (h : Host) (binary : Path)
  | clear

namespace Record

/-- Runs a probe, and notes it. -/
def run (p : Probe) (h : Host) (binary : Path) :
    StateM (List Run) (Except ProbeFailure Profile) := do
  modify (· ++ [⟨p, h, binary⟩])
  pure (p.ask h binary)

/-- Asks for an answer. -/
def ask (s : Record) (p : Probe) (h : Host) (binary : Path) :
    Except ProbeFailure Profile × Record :=
  let ((answer, cache), runs) := (s.cache.getOrRun h (run p h binary) binary).run s.runs
  (answer, ⟨cache, runs⟩)

def use (s : Record) : Use → Record
  | .ask p h binary => (s.ask p h binary).2
  | .clear => ⟨.empty, []⟩

/-- The record of a cache that is used like this from the beginning. -/
def after (uses : List Use) : Record := uses.foldl use ⟨.empty, []⟩

end Record

/-! ## One use -/

namespace Cache

variable {c : Cache} {binary other : Path} {modified : Nat} {profile : Profile}

theorem get?_of_same (same : binary.same other = true) (modified : Nat) :
    c.get? binary modified = c.get? other modified := by
  unfold get? Path.same at *
  rw [beq_iff_eq.1 same]

/-- A new answer is found for its binary and its moment, and hides nothing that was found for others. -/
theorem get?_insert (c : Cache) (binary : Path) (modified : Nat) (profile : Profile) (other : Path)
    (moment : Nat) :
    (c.insert binary modified profile).get? other moment =
      if binary.same other = true ∧ modified = moment then some profile else c.get? other moment := by
  unfold get? insert
  by_cases found : binary.same other = true ∧ modified = moment
  · rw [if_pos found, List.find?_cons_of_pos (by simp [found])]
    rfl
  · rw [if_neg found, List.find?_cons_of_neg (by simpa using found)]

/-- What is found stands in an entry. -/
theorem exists_entry_of_get? (found : c.get? binary modified = some profile) :
    ∃ e ∈ c.entries, e.binary.same binary = true ∧ e.modified = modified ∧ e.profile = profile := by
  obtain ⟨e, first, rfl⟩ := Option.map_eq_some_iff.1 found
  have matched := List.find?_some first
  rw [Bool.and_eq_true, beq_iff_eq] at matched
  exact ⟨e, List.mem_of_find?_eq_some first, matched.1, matched.2, rfl⟩

end Cache

namespace Record

variable {s : Record} {p : Probe} {h : Host} {binary : Path} {modified : Nat} {profile : Profile}
  {e : ProbeFailure}

/-- What comes of asking, with the record after it. -/
inductive Asked (s : Record) (p : Probe) (h : Host) (binary : Path) :
    Except ProbeFailure Profile → Record → Prop where
  /-- Nobody can look at the binary. -/
  | unreadable {cause : FileError} (there : h.tree.modified binary = .error cause) :
      Asked s p h binary (.error (.io cause.message)) s
  /-- There is an answer already. -/
  | found {modified : Nat} {profile : Profile} (there : h.tree.modified binary = .ok modified)
      (found : s.cache.get? binary modified = some profile) : Asked s p h binary (.ok profile) s
  /-- There is none, and the run fails. -/
  | failed {modified : Nat} {e : ProbeFailure} (there : h.tree.modified binary = .ok modified)
      (missing : s.cache.get? binary modified = none) (failed : p.ask h binary = .error e) :
      Asked s p h binary (.error e) ⟨s.cache, s.runs ++ [⟨p, h, binary⟩]⟩
  /-- There is none, and the run has one. -/
  | told {modified : Nat} {profile : Profile} (there : h.tree.modified binary = .ok modified)
      (missing : s.cache.get? binary modified = none) (told : p.ask h binary = .ok profile) :
      Asked s p h binary (.ok profile)
        ⟨s.cache.insert binary modified profile, s.runs ++ [⟨p, h, binary⟩]⟩

/-- Asking goes one of these ways. -/
theorem asked (s : Record) (p : Probe) (h : Host) (binary : Path) :
    Asked s p h binary (s.ask p h binary).1 (s.ask p h binary).2 := by
  unfold ask Cache.getOrRun
  cases there : h.tree.modified binary with
  | error cause => exact .unreadable there
  | ok modified =>
    simp only
    cases found : s.cache.get? binary modified with
    | some profile => exact .found there found
    | none =>
      simp only [run]
      cases told : p.ask h binary with
      | error e => exact .failed there found told
      | ok profile => exact .told there found told

variable {answer : Except ProbeFailure Profile} {later : Record}

/-- Each of these ways is what asking does in its case. -/
theorem Asked.ask_eq (way : Asked s p h binary answer later) :
    s.ask p h binary = (answer, later) := by
  unfold Record.ask Cache.getOrRun
  cases way with
  | unreadable there =>
    simp only [there]
    rfl
  | found there found =>
    simp only [there, found]
    rfl
  | failed there missing failed =>
    simp only [there, missing, run, failed]
    rfl
  | told there missing told =>
    simp only [there, missing, run, told]
    rfl

/-- Noting the runs changes nothing in what the cache does. -/
theorem Asked.getOrAsk_eq (way : Asked s p h binary answer later) :
    s.cache.getOrAsk h p binary = (answer, later.cache) := by
  unfold Cache.getOrAsk
  cases way with
  | unreadable there => simp only [there]
  | found there found => simp only [there, found]
  | failed there missing failed => simp only [there, missing, failed]
  | told there missing told => simp only [there, missing, told]

/-- Where nothing is found, the probe is run, whatever comes of it. -/
theorem Asked.runs_of_missing (way : Asked s p h binary answer later)
    (there : h.tree.modified binary = .ok modified) (missing : s.cache.get? binary modified = none) :
    later.runs = s.runs ++ [⟨p, h, binary⟩] := by
  cases way with
  | unreadable there' =>
    rw [there] at there'
    cases there'
  | found there' found =>
    rw [there] at there'
    obtain rfl := Except.ok.inj there'
    rw [missing] at found
    cases found
  | failed => rfl
  | told => rfl

/-! ## Every use -/

/-- The cache holds what the runs have told, and each thing once. -/
structure Faithful (s : Record) : Prop where
  /-- Whatever an entry says was told by a run. -/
  told : ∀ e ∈ s.cache.entries, ∃ r ∈ s.runs, r.Tells e.binary e.modified e.profile
  /-- Whatever a run has told is found. -/
  kept : ∀ r ∈ s.runs, ∀ binary modified profile, r.Tells binary modified profile →
    s.cache.get? binary modified = some profile
  once : AtMostOnce s.runs

theorem Faithful.exists_run (f : s.Faithful) (found : s.cache.get? binary modified = some profile) :
    ∃ r ∈ s.runs, r.Tells binary modified profile := by
  obtain ⟨e, inside, same, rfl, rfl⟩ := Cache.exists_entry_of_get? found
  obtain ⟨r, ran, tells⟩ := f.told e inside
  refine ⟨r, ran, ?_, tells.modified, tells.answer⟩
  have same' := tells.binary
  unfold Path.same at same same' ⊢
  rw [beq_iff_eq.1 same', same]

theorem Faithful.not_tells (f : s.Faithful) (missing : s.cache.get? binary modified = none) :
    ∀ r ∈ s.runs, ∀ other, ¬ r.Tells binary modified other := by
  intro r ran other tells
  rw [f.kept r ran binary modified other tells] at missing
  cases missing

/-- A run is about its own binary, as it was when it last changed before. -/
theorem same_of_tells {r : Run} {other : Path} {moment : Nat} (tells : r.Tells other moment profile)
    (there : r.host.tree.modified r.binary = .ok modified) :
    r.binary.same other = true ∧ modified = moment :=
  ⟨tells.binary, Except.ok.inj (there.symm.trans tells.modified)⟩

/-- One run more, where no run has told anything before. -/
theorem Faithful.once_concat (f : s.Faithful) (there : h.tree.modified binary = .ok modified)
    (missing : s.cache.get? binary modified = none) : AtMostOnce (s.runs ++ [⟨p, h, binary⟩]) := by
  refine List.pairwise_append.2 ⟨f.once, List.pairwise_singleton _ _, fun r ran later last => ?_⟩
  rw [List.mem_singleton.1 last]
  intro other moment profile profile' tells late
  -- both runs would tell of one place, where nothing was found before the later one
  obtain ⟨same, rfl⟩ := same_of_tells late there
  rw [Cache.get?_of_same same] at missing
  exact f.not_tells missing r ran profile tells

/-- Whichever way asking goes, the cache stays faithful. -/
theorem Faithful.asked (f : s.Faithful) (way : Asked s p h binary answer later) : later.Faithful := by
  cases way with
  | unreadable => exact f
  | found => exact f
  | failed there missing failed =>
    refine ⟨fun e inside => ?_, fun r ran other moment profile tells => ?_, f.once_concat there missing⟩
    · obtain ⟨r, ran, tells⟩ := f.told e inside
      exact ⟨r, List.mem_append_left _ ran, tells⟩
    · rcases List.mem_append.1 ran with ran | last
      · exact f.kept r ran other moment profile tells
      · -- a run that fails tells nothing
        obtain rfl := List.mem_singleton.1 last
        cases failed.symm.trans tells.answer
  | told there missing told =>
    refine ⟨fun e inside => ?_, fun r ran other moment profile tells => ?_, f.once_concat there missing⟩
    · rcases List.mem_cons.1 inside with rfl | inside
      · exact ⟨⟨p, h, binary⟩, List.mem_append_right _ (List.mem_singleton_self _),
          beq_self_eq_true _, there, told⟩
      · obtain ⟨r, ran, tells⟩ := f.told e inside
        exact ⟨r, List.mem_append_left _ ran, tells⟩
    · rw [Cache.get?_insert]
      rcases List.mem_append.1 ran with ran | last
      · -- the new entry is not about what the run was about
        rw [if_neg, f.kept r ran other moment profile tells]
        rintro ⟨same, rfl⟩
        rw [Cache.get?_of_same same, f.kept r ran other _ profile tells] at missing
        cases missing
      · obtain rfl := List.mem_singleton.1 last
        rw [if_pos (same_of_tells tells there)]
        exact congrArg some (Except.ok.inj (told.symm.trans tells.answer))

/-- However a cache is used, it stays faithful to the runs. -/
theorem faithful_after (uses : List Use) : (after uses).Faithful := by
  have empty : (⟨.empty, []⟩ : Record).Faithful := ⟨nofun, nofun, .nil⟩
  have step : ∀ (s : Record) (u : Use), s.Faithful → (s.use u).Faithful := by
    intro s u f
    cases u with
    | ask p h binary => exact f.asked (asked s p h binary)
    | clear => exact empty
  unfold after
  generalize (⟨.empty, []⟩ : Record) = s at empty
  induction uses generalizing s with
  | nil => exact empty
  | cons u uses ih => exact ih (s.use u) (step s u empty)

/-- An answer is the one of an earlier run, or of a run that is made now since there was none. -/
theorem Faithful.cases_of_ok (f : s.Faithful) (way : Asked s p h binary (.ok profile) later) :
    ∃ modified, h.tree.modified binary = .ok modified ∧
      ((∃ r ∈ s.runs, r.Tells binary modified profile) ∧ later.runs = s.runs ∨
        (∀ r ∈ s.runs, ∀ other, ¬ r.Tells binary modified other) ∧ p.ask h binary = .ok profile ∧
          later.runs = s.runs ++ [⟨p, h, binary⟩]) := by
  cases way with
  | found there found => exact ⟨_, there, .inl ⟨f.exists_run found, rfl⟩⟩
  | told there missing told => exact ⟨_, there, .inr ⟨f.not_tells missing, told, rfl⟩⟩

/-- A failure is the one of looking at the binary, or that of a run, and either leaves the cache as it was. -/
theorem cases_of_error (way : Asked s p h binary (.error e) later) :
    later.cache = s.cache ∧
      ((∃ cause, h.tree.modified binary = .error cause ∧ e = .io cause.message ∧ later.runs = s.runs) ∨
        ∃ modified, h.tree.modified binary = .ok modified ∧ p.ask h binary = .error e ∧
          later.runs = s.runs ++ [⟨p, h, binary⟩] ∧ later.cache.get? binary modified = none) := by
  cases way with
  | unreadable there => exact ⟨rfl, .inl ⟨_, there, rfl, rfl⟩⟩
  | failed there missing failed => exact ⟨rfl, .inr ⟨_, there, failed, rfl, missing⟩⟩

/-- What the cache returns, however it was used before. An answer is what the one run with success has told
of the binary as it was when it had last changed, and there is no other since the cache was last emptied: a
run of the probe that asks now, if no probe had an answer before, and otherwise the run that got it, whoever
made that; then nothing is run. No two runs have success with a binary as it was at one moment. A failure is
the one of looking at the binary or of the run; it comes back as it is, it leaves the cache as it was, and
whoever asks next for the binary as it was makes a run. -/
theorem answered_by_runs (uses : List Use) (p : Probe) (h : Host) (binary : Path) :
    (after uses).cache.getOrAsk h p binary =
        (((after uses).ask p h binary).1, ((after uses).ask p h binary).2.cache) ∧
      (∀ profile, ((after uses).ask p h binary).1 = .ok profile →
        ∃ modified, h.tree.modified binary = .ok modified ∧
          ((∃ r ∈ (after uses).runs, r.Tells binary modified profile) ∧
              ((after uses).ask p h binary).2.runs = (after uses).runs ∨
            (∀ r ∈ (after uses).runs, ∀ other, ¬ r.Tells binary modified other) ∧
              p.ask h binary = .ok profile ∧
              ((after uses).ask p h binary).2.runs = (after uses).runs ++ [⟨p, h, binary⟩])) ∧
      AtMostOnce ((after uses).ask p h binary).2.runs ∧
      ∀ e, ((after uses).ask p h binary).1 = .error e →
        ((after uses).ask p h binary).2.cache = (after uses).cache ∧
          ((∃ cause, h.tree.modified binary = .error cause ∧ e = .io cause.message ∧
              ((after uses).ask p h binary).2.runs = (after uses).runs) ∨
            ∃ modified, h.tree.modified binary = .ok modified ∧ p.ask h binary = .error e ∧
              ((after uses).ask p h binary).2.runs = (after uses).runs ++ [⟨p, h, binary⟩] ∧
              ∀ (q : Probe) (h' : Host) (again : Path), binary.same again = true →
                h'.tree.modified again = .ok modified →
                  (((after uses).ask p h binary).2.ask q h' again).2.runs =
                    ((after uses).ask p h binary).2.runs ++ [⟨q, h', again⟩]) := by
  have faithful := faithful_after uses
  generalize after uses = s at faithful
  have way := asked s p h binary
  generalize s.ask p h binary = result at way
  obtain ⟨answer, later⟩ := result
  refine ⟨way.getOrAsk_eq, ?_, (faithful.asked way).once, ?_⟩
  · rintro profile rfl
    exact faithful.cases_of_ok way
  · rintro e rfl
    obtain ⟨unchanged, unreadable | ⟨modified, there, failed, ran, missing⟩⟩ := cases_of_error way
    · exact ⟨unchanged, .inl unreadable⟩
    · refine ⟨unchanged, .inr ⟨modified, there, failed, ran, fun q h' again same there' => ?_⟩⟩
      -- nothing is found there now, under no spelling of the path
      apply (asked later q h' again).runs_of_missing there'
      rw [← Cache.get?_of_same same, missing]

/-- An interpreter that does not describe itself as Node does is none. -/
theorem Node.ask_of_unlike {r : Finished} (ran : h.run binary = .ok r) (success : r.success = true)
    (unlike : (Json.parse? (Text.trim (Text.decodeLossy r.stdout))).bind Node.Description.ofJson? = none) :
    Node.ask h binary = .error (.parse ("failed to parse node probe output:" ++
      h.refusal "node" (Text.decodeLossy r.stdout))) := by
  unfold Node.ask
  simp only [ran, success, unlike]
  rfl

theorem modified_linked : linkedHost.tree.modified (.ofText "/venv/bin/python3") = .ok 0 := by
  unfold Files.Tree.modified
  rw [locate_linked]
  rfl

/-- One probe gets the answer of another. When Python has been asked about a binary and then Node is asked
about the same one, Node gets an answer, though it is not run and would fail if it were. -/
theorem answered_by_other :
    (∃ profile, ((after [.ask (Python.probe none none) linkedHost (.ofText "/venv/bin/python3")]).ask
      (Node.probe none) linkedHost (.ofText "/venv/bin/python3")).1 = .ok profile) ∧
    (∀ r ∈ ((after [.ask (Python.probe none none) linkedHost (.ofText "/venv/bin/python3")]).ask
      (Node.probe none) linkedHost (.ofText "/venv/bin/python3")).2.runs, r.probe ≠ Node.probe none) ∧
    (Node.probe none).ask linkedHost (.ofText "/venv/bin/python3") =
      .error (.parse "failed to parse node probe output:") := by
  have there := modified_linked
  generalize Path.ofText "/venv/bin/python3" = binary at there
  have asks : (Python.probe none none).ask = Python.ask := rfl
  obtain ⟨profile, told⟩ : ∃ profile, (Python.probe none none).ask linkedHost binary = .ok profile := by
    rw [asks]
    exact ⟨_, Python.ask_of_prints (Python.prints_linked binary)⟩
  -- the answer of Python is kept, so Node finds it before it is run
  have before : after [.ask (Python.probe none none) linkedHost binary] =
      ⟨Cache.empty.insert binary 0 profile, [⟨Python.probe none none, linkedHost, binary⟩]⟩ :=
    congrArg Prod.snd (Asked.told (s := ⟨.empty, []⟩) there rfl told).ask_eq
  have found : (Cache.empty.insert binary 0 profile).get? binary 0 = some profile := by
    rw [Cache.get?_insert, if_pos ⟨beq_self_eq_true _, rfl⟩]
  rw [before, (Asked.found there found).ask_eq]
  refine ⟨⟨profile, rfl⟩, fun r ran same => ?_, ?_⟩
  · rw [List.mem_singleton.1 ran] at same
    -- the two probes go by different names
    have names : "python" = "node" := congrArg Probe.name same
    exact absurd names (by decide)
  · have asks : (Node.probe none).ask = Node.ask := rfl
    rw [asks]
    refine Node.ask_of_unlike rfl rfl ?_
    rw [parse?_linked]
    rfl

end Record

end SnippetRunner.Interpreter
