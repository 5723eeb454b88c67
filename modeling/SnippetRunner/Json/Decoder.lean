import SnippetRunner.Json.Document

/-!
# Reading typed data from JSON values

The rules that every data type of this library shares: integers are written as integers and lie in
the range of their type, null stands for an absent value only where one may be absent, and a record
is an object with known members or an array of its fields in order.
-/

namespace SnippetRunner.Json

/-- A reading of values as data of some type; it refuses the values that do not denote such data. -/
abbrev Decoder (α : Type) := Value → Option α

namespace Decoder

/-- A text. -/
def text : Decoder String
  | .string s => s
  | _ => none

/-- A truth value. -/
def bool : Decoder Bool
  | .bool b => some b
  | _ => none

/-- An integer between two bounds. -/
def int (low high : Int) : Decoder Int
  | .number n => do
    let i ← n.int?
    if low ≤ i ∧ i ≤ high then some i else none
  | _ => none

/-- A natural number of at most so many bits. -/
def word (bits : Nat) : Decoder Nat :=
  fun v => (int 0 (Int.pow 2 bits - 1) v).map Int.toNat

/-- A signed number of 64 bits. -/
def signed : Decoder Int := int (-(Int.pow 2 63)) (Int.pow 2 63 - 1)

/-- A value that may be absent; null says that it is. -/
def optional {α : Type} (d : Decoder α) : Decoder (Option α)
  | .null => some none
  | v => (d v).map some

/-- Every item of an array. -/
def list {α : Type} (d : Decoder α) : Decoder (List α)
  | .array items => items.mapM d
  | _ => none

/-- The members under the given names, in the order of the names. A name given twice is refused, and
where `strict` holds so is a member under any other name. -/
def members (names : List String) (strict : Bool) (ms : List (Option String × Value)) :
    Option (List (Option Value)) :=
  if ms.any fun m => m.1.isNone || (strict && !(names.any fun n => m.1 == some n)) then none
  else names.mapM fun n =>
    match ms.filter fun m => m.1 == some n with
    | [] => some none
    | [m] => some (some m.2)
    | _ => none

/-- The fields of a record: the members of an object, or the items of an array in order, of which
the last ones may be missing. -/
def fields (names : List String) (strict : Bool) : Decoder (List (Option Value))
  | .object ms => members names strict ms
  | .array items =>
    if items.length ≤ names.length then
      some (items.map some ++ List.replicate (names.length - items.length) none)
    else none
  | _ => none

/-- A field that has to be there. -/
def required {α : Type} (d : Decoder α) (v : Option Value) : Option α := v.bind d

/-- A field with a value of its own where it is missing. -/
def withDefault {α : Type} (d : Decoder α) (default : α) : Option Value → Option α
  | none => some default
  | some v => d v

end Decoder

end SnippetRunner.Json
