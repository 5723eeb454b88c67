import SnippetRunner.Text.Decimal

/-!
# JSON values

The value that a JSON text denotes. Texts from outside may name a surrogate without its partner;
such a string denotes no text, and its value holds `none`. A number keeps the digits it was written
with, since some readers care how a number is spelled and not only what it is worth.
-/

namespace SnippetRunner.Json

/-- A number as it is written: sign, digits before the point, digits after it, and the exponent with
its sign. -/
structure Numeral where
  negative : Bool
  whole : List Nat
  fraction : Option (List Nat)
  exponent : Option (Bool × List Nat)
  deriving DecidableEq, Repr

/-- A JSON value. Members of an object stand in the order in which they are written. -/
inductive Value where
  | null
  | bool (b : Bool)
  | number (n : Numeral)
  | string (s : Option String)
  | array (items : List Value)
  | object (members : List (Option String × Value))
  deriving Repr, Inhabited

namespace Numeral

/-- The numeral of a natural number, in its plain form. -/
def ofNat (n : Nat) : Numeral :=
  ⟨false, (Nat.toDigits 10 n).map fun c => c.toNat - '0'.toNat, none, none⟩

/-- The numeral of an integer, in its plain form. -/
def ofInt (i : Int) : Numeral :=
  { ofNat i.natAbs with negative := i < 0 }

/-- The integer that a numeral without fraction and exponent writes. A zero with a sign is no
integer. -/
def int? (n : Numeral) : Option Int :=
  match n.fraction, n.exponent with
  | none, none =>
    let v := Text.ofDigits 10 n.whole
    if n.negative then (if v = 0 then none else some (-(Int.ofNat v))) else some (Int.ofNat v)
  | _, _ => none

/-! ## Numbers that a double can hold

A reader that keeps every number refuses the ones beyond the greatest double. Its significand takes
digits as long as they fit in 64 bits; the digits after that count by their place only.
-/

/-- A significand and the power of ten that scales it. -/
structure Scaled where
  significand : Nat
  power : Int
  deriving DecidableEq, Repr

/-- A digit before the point. From the first one that does not fit, each is worth a place. -/
def Scaled.takeWhole (s : Scaled × Bool) (d : Nat) : Scaled × Bool :=
  if s.2 && s.1.significand * 10 + d ≤ Text.maxWord then
    (⟨s.1.significand * 10 + d, s.1.power⟩, true)
  else (⟨s.1.significand, s.1.power + 1⟩, false)

/-- The digits before the point. -/
def Scaled.ofWhole (ds : List Nat) : Scaled := (ds.foldl Scaled.takeWhole (⟨0, 0⟩, true)).1

/-- A digit after the point. From the first one that does not fit, they are left out. -/
def Scaled.takeFraction (s : Scaled × Bool) (d : Nat) : Scaled × Bool :=
  if s.2 && s.1.significand * 10 + d ≤ Text.maxWord then
    (⟨s.1.significand * 10 + d, s.1.power - 1⟩, true)
  else (s.1, false)

/-- The digits after the point. -/
def Scaled.addFraction (s : Scaled) (ds : List Nat) : Scaled :=
  (ds.foldl Scaled.takeFraction (s, true)).1

/-- A number in the scale that its digits give. -/
def scaled (n : Numeral) : Scaled :=
  let s := (Scaled.ofWhole n.whole).addFraction (n.fraction.getD [])
  match n.exponent with
  | none => s
  | some (negative, ds) =>
    let e := Int.ofNat (Text.ofDigits 10 ds)
    ⟨s.significand, if negative then s.power - e else s.power + e⟩

/-- The nearest number with 53 significant bits; a tie goes to the even one. -/
def toDouble (n : Nat) : Nat :=
  let extra := (n.log2 + 1) - 53
  let unit := Nat.pow 2 extra
  let low := n / unit
  let rest := n % unit
  if 2 * rest > unit ∨ (2 * rest = unit ∧ low % 2 = 1) then (low + 1) * unit else low * unit

/-- The value is not beyond the greatest double when its significand, as a double, is scaled by its
power of ten, as a double. -/
def inRange (n : Numeral) : Bool :=
  let s := n.scaled
  if s.significand = 0 ∨ s.power < 0 then true
  else if s.power > 308 then false
  else toDouble s.significand * toDouble (Nat.pow 10 s.power.toNat) <
      Nat.pow 2 1024 - Nat.pow 2 970

end Numeral

namespace Value

/-- The value of a text. -/
def text (s : String) : Value := .string (some s)

/-- The value of a natural number. -/
def nat (n : Nat) : Value := .number (.ofNat n)

/-- The value of an integer. -/
def int (i : Int) : Value := .number (.ofInt i)

/-- A text, or null in its absence. -/
def text? : Option String → Value
  | none => .null
  | some s => .text s

/-- An object with the given members. -/
def record (members : List (String × Value)) : Value :=
  .object (members.map fun m => (some m.1, m.2))

/-- The member of an object under a name. -/
def get? (v : Value) (name : String) : Option Value :=
  match v with
  | .object members => (members.find? fun m => m.1 == some name).map Prod.snd
  | _ => none

end Value

end SnippetRunner.Json
