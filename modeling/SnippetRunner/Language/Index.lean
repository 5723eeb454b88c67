import SnippetRunner.Language.Catalog
import SnippetRunner.Table

/-!
# The table of names

Lookups by name need not go through all languages: one table leads from every name, in normal form, to
the place of its language among the registered ones. Names are entered language by language, and a
name that already leads to another language is refused. A language may list a name twice.
-/

namespace SnippetRunner.Catalog

/-- The places of the languages by their names. -/
abbrev Index := Table String Nat

namespace Index

/-- Enters some names of the language that stands at a place among all of them. -/
def enterNames (ls : List Language) (l : Language) (i : Nat) (t : Index) :
    List String → Except Failure Index
  | [] => .ok t
  | name :: rest =>
    if name = "" then .error (.invalidConfig ("empty identifier for language " ++ l.id))
    else match t.get? name with
      | none => enterNames ls l i (t.set name i) rest
      | some other =>
        if other = i then enterNames ls l i (t.set name i) rest
        else .error (.invalidConfig ("identifier " ++ Text.quoted name ++ " claimed by both " ++
          (ls[other]?.elim "" Language.id) ++ " and " ++ l.id))

/-- Enters the names of the languages that stand at a place and after it. -/
def enterFrom (ls : List Language) (i : Nat) (t : Index) : List Language → Except Failure Index
  | [] => .ok t
  | l :: rest => do
    let t ← enterNames ls l i t l.names
    enterFrom ls (i + 1) t rest

/-- The table of some languages, unless a name is empty or belongs to two of them. -/
def build (ls : List Language) : Except Failure Index := enterFrom ls 0 .empty ls

/-- The language that an identifier leads to. -/
def find? (t : Index) (ls : List Language) (identifier : String) : Option Language :=
  (t.get? (Language.normalize identifier)).bind fun i => ls[i]?

end Index

end SnippetRunner.Catalog
