import SnippetRunner.Failure
import SnippetRunner.Language.Spec
import SnippetRunner.Text.Quoted

/-!
# The catalog of languages

The registered languages in their order, of which no two share a name. An identifier addresses the
one language that goes by it.
-/

namespace SnippetRunner

/-- The registered languages. -/
structure Catalog where
  languages : List Language
  deriving DecidableEq, Repr

namespace Catalog

/-- The language among those given that goes by this name, a name in normal form. -/
def claimant? (ls : List Language) (name : String) : Option Language :=
  ls.find? fun l => l.names.contains name

/-- Checks the names of one language against the languages registered before it. -/
def checkNames (earlier : List Language) (l : Language) : List String → Except Failure Unit
  | [] => .ok ()
  | name :: rest =>
    if name = "" then .error (.invalidConfig ("empty identifier for language " ++ l.id))
    else match claimant? earlier name with
      | some other =>
        .error (.invalidConfig ("identifier " ++ Text.quoted name ++ " claimed by both " ++
          other.id ++ " and " ++ l.id))
      | none => checkNames earlier l rest

/-- Checks the languages that follow some earlier ones. -/
def checkFrom (earlier : List Language) : List Language → Except Failure Unit
  | [] => .ok ()
  | l :: rest => do
    checkNames earlier l l.names
    checkFrom (earlier ++ [l]) rest

/-- The catalog of these languages, unless a name is empty or belongs to two of them. -/
def build (ls : List Language) : Except Failure Catalog := do
  checkFrom [] ls
  pure ⟨ls⟩

/-- The catalog of the built-in languages. -/
def standard : Catalog := ⟨[.python, .javascript]⟩

/-- The language that an identifier addresses. -/
def find? (c : Catalog) (identifier : String) : Option Language :=
  claimant? c.languages (Language.normalize identifier)

/-- The language that an identifier addresses, or the failure that names the identifier as it was
written. -/
def find (c : Catalog) (identifier : String) : Except Failure Language :=
  match c.find? identifier with
  | some l => .ok l
  | none => .error (.unsupportedLanguage identifier)

/-- Some language goes by this identifier. -/
def supports (c : Catalog) (identifier : String) : Bool := (c.find? identifier).isSome

/-- The catalog as a diagnostic shows it. -/
def describe (c : Catalog) : String :=
  "ExecutorRegistry \x7b languages: [" ++
    ", ".intercalate (c.languages.map fun l => Text.quoted l.id) ++ "] \x7d"

end Catalog

end SnippetRunner
