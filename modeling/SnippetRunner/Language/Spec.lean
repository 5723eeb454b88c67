import SnippetRunner.Text.Blank

/-!
# Languages and their names

A language is addressed by its id, its aliases and its file extensions. Names are compared in a
normal form: without the blanks around them, without one leading dot, and in ASCII lower case.
-/

namespace SnippetRunner

/-- A language and the names it goes by. -/
structure Language where
  id : String
  aliases : List String
  extensions : List String
  deriving DecidableEq, Repr

namespace Language

/-- A character in ASCII lower case. -/
def lower (c : Char) : Char :=
  if 'A' ≤ c ∧ c ≤ 'Z' then Char.ofNat (c.toNat + 32) else c

/-- The characters without one leading dot. -/
def dropDot (cs : List Char) : List Char :=
  match cs with
  | '.' :: r => r
  | r => r

/-- The normal form of a name. -/
def normalize (name : String) : String :=
  String.ofList ((dropDot (Text.trim name).toList).map lower)

/-- The names of a language, in normal form. -/
def names (l : Language) : List String :=
  (l.id :: (l.aliases ++ l.extensions)).map normalize

/-- Python, with the names it goes by. -/
def python : Language := ⟨"python", ["py", "python3"], ["py"]⟩

/-- JavaScript, with the names it goes by. -/
def javascript : Language := ⟨"javascript", ["js", "node", "nodejs"], ["js", "mjs", "cjs"]⟩

end Language

end SnippetRunner
