import SnippetRunner.Interpreter.Search

/-!
# The probe cache

What interpreters told about themselves, by the path of the binary and the moment it last changed,
so that an interpreter that is replaced in its place is asked again. Failures are not kept.
-/

namespace SnippetRunner.Interpreter

/-- What a binary told, when it had last changed at this moment. -/
structure CacheEntry where
  binary : Path
  modified : Nat
  profile : Profile
  deriving DecidableEq, Repr

/-- The answers of interpreters. -/
structure Cache where
  entries : List CacheEntry
  deriving DecidableEq, Repr

namespace Cache

/-- Nothing has been asked. -/
def empty : Cache := ⟨[]⟩

/-- The answer of a binary that last changed at this moment. -/
def get? (c : Cache) (binary : Path) (modified : Nat) : Option Profile :=
  (c.entries.find? fun e => e.binary.same binary && e.modified == modified).map CacheEntry.profile

/-- The cache with one more answer. -/
def insert (c : Cache) (binary : Path) (modified : Nat) (profile : Profile) : Cache :=
  ⟨⟨binary, modified, profile⟩ :: c.entries⟩

/-- The number of answers. -/
def size (c : Cache) : Nat := c.entries.length

/-- The answer of a binary: the one it has given already, or the one that the probe gets now. -/
def getOrAsk (c : Cache) (h : Host) (p : Probe) (binary : Path) :
    Except ProbeFailure Profile × Cache :=
  match h.tree.modified binary with
  | .error e => (.error (.io e.message), c)
  | .ok modified =>
    match c.get? binary modified with
    | some profile => (.ok profile, c)
    | none =>
      match p.ask h binary with
      | .error e => (.error e, c)
      | .ok profile => (.ok profile, c.insert binary modified profile)

end Cache

end SnippetRunner.Interpreter
