/-!
# TOML values

The value of a TOML document, as far as a configuration can use it: what a float or a date is worth
is not kept. Tables remember how they came about, because a document may add to some of them and
not to others.
-/

namespace SnippetRunner.Toml

/-- How a table came about. -/
inductive Origin where
  /-- Named by a header only as the way to another table. -/
  | passed
  /-- Opened by its own header. -/
  | header
  /-- Made by a key with dots. -/
  | dotted
  /-- Written between braces, so that nothing can be added to it. -/
  | inline
  deriving DecidableEq, Repr

/-- A TOML value. -/
inductive Value where
  | string (s : String)
  | integer (i : Int)
  | float
  | bool (b : Bool)
  | date
  | array (items : List Value)
  /-- Tables that headers with double brackets open one after the other. -/
  | tables (items : List (List (String × Value)))
  | table (origin : Origin) (entries : List (String × Value))
  deriving Repr, Inhabited

/-- The entries of a table. -/
abbrev Entries := List (String × Value)

/-- The value under a name. -/
def Entries.get? (t : Entries) (name : String) : Option Value :=
  (t.find? fun e => e.1 == name).map Prod.snd

/-- Gives a name its value, in the place of an earlier one. -/
def Entries.set (name : String) (v : Value) : Entries → Entries
  | [] => [(name, v)]
  | (n, w) :: rest => if n = name then (n, v) :: rest else (n, w) :: Entries.set name v rest

/-! ## Adding to tables -/

/-- Changes the table that a header reaches on the way to the one it opens: tables in between come
about as they are passed, and of several tables under one name the last one is meant. -/
def Entries.through (t : Entries) (path : List String) (f : Entries → Option Entries) :
    Option Entries :=
  match path with
  | [] => f t
  | name :: rest =>
    match t.get? name with
    | none => do
      let inner ← Entries.through [] rest f
      pure (t.set name (.table .passed inner))
    | some (.table .inline _) => none
    | some (.table origin inner) => do
      let inner ← Entries.through inner rest f
      pure (t.set name (.table origin inner))
    | some (.tables items) =>
      match items.getLast? with
      | none => none
      | some last => do
        let last ← Entries.through last rest f
        pure (t.set name (.tables (items.dropLast ++ [last])))
    | some _ => none

/-- Opens the table of a header. It must not exist yet, except as one that was only passed. -/
def Entries.openTable (t : Entries) (path : List String) (name : String) : Option Entries :=
  t.through path fun t =>
    match t.get? name with
    | none => some (t.set name (.table .header []))
    | some (.table .passed inner) => some (t.set name (.table .header inner))
    | some _ => none

/-- Opens one more table of a header with double brackets. -/
def Entries.openItem (t : Entries) (path : List String) (name : String) : Option Entries :=
  t.through path fun t =>
    match t.get? name with
    | none => some (t.set name (.tables [[]]))
    | some (.tables items) => some (t.set name (.tables (items ++ [[]])))
    | some _ => none

/-- Adds a key and its value to a table. The parts of a key before its last dot make tables. The key
comes into a table that such keys made; on the way there it may pass tables that headers passed. -/
def Entries.addKey (t : Entries) (path : List String) (name : String) (v : Value) :
    Option Entries :=
  match path with
  | [] =>
    match t.get? name with
    | none => some (t.set name v)
    | some _ => none
  | first :: rest =>
    match t.get? first with
    | none => do
      let inner ← Entries.addKey [] rest name v
      pure (t.set first (.table .dotted inner))
    | some (.table .dotted inner) => do
      let inner ← Entries.addKey inner rest name v
      pure (t.set first (.table .dotted inner))
    | some (.table .passed inner) =>
      if rest = [] then none
      else do
        let inner ← Entries.addKey inner rest name v
        pure (t.set first (.table .passed inner))
    | some (.tables items) =>
      match items.getLast? with
      | none => none
      | some last =>
        if rest = [] then none
        else do
          let last ← Entries.addKey last rest name v
          pure (t.set first (.tables (items.dropLast ++ [last])))
    | some _ => none

end SnippetRunner.Toml
