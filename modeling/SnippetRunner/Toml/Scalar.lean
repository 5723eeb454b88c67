import SnippetRunner.Text.Decimal
import SnippetRunner.Toml.Value

/-!
# Numbers, dates and truth values of TOML

The values that are written without quotes and brackets. Such a value is a run of letters, digits
and a few signs; this module says which runs are values.
-/

namespace SnippetRunner.Toml

/-- A character of a value written without quotes. -/
def isScalarChar (c : Char) : Bool :=
  c.isAlphanum || c == '_' || c == '+' || c == '-' || c == '.' || c == ':'

/-- The digits of a number in which single underscores may stand between digits. -/
def grouped? (value? : Char → Option Nat) (cs : List Char) : Option (List Nat) :=
  let go := cs.foldl
    (fun (s : Option (List Nat × Bool)) c =>
      match s with
      | none => none
      | some (ds, afterDigit) =>
        if c = '_' then (if afterDigit then some (ds, false) else none)
        else (value? c).map fun d => (d :: ds, true))
    (some ([], false))
  match go with
  | some (ds, true) => some ds.reverse
  | _ => none

/-- The value of a digit below a base. -/
def digitBelow (base : Nat) (c : Char) : Option Nat :=
  (Text.hexDigit? c).filter fun d => d < base

/-- A number in decimal digits without a superfluous zero in front. -/
def plainDigits? (cs : List Char) : Option (List Nat) :=
  match grouped? Text.digit? cs with
  | some (0 :: _ :: _) => none
  | ds => ds

/-- A sign and what follows it. -/
def signed (cs : List Char) : Bool × List Char :=
  match cs with
  | '-' :: r => (true, r)
  | '+' :: r => (false, r)
  | r => (false, r)

/-- The bounds of the integers that a document may hold. -/
def inIntegerRange (i : Int) : Bool := -(Int.pow 2 127) ≤ i && i < Int.pow 2 128

/-- An integer. -/
def integer? (cs : List Char) : Option Int :=
  let based (base : Nat) (r : List Char) : Option Int :=
    (grouped? (digitBelow base) r).map fun ds => Int.ofNat (Text.ofDigits base ds)
  let i? := match cs with
    | '0' :: 'x' :: r => based 16 r
    | '0' :: 'o' :: r => based 8 r
    | '0' :: 'b' :: r => based 2 r
    | _ =>
      let (negative, r) := signed cs
      (plainDigits? r).map fun ds =>
        let n := Int.ofNat (Text.ofDigits 10 ds)
        if negative then -n else n
  i?.filter inIntegerRange

/-- The value of digits times a power of ten lies beyond the greatest double. -/
def overflows (digits : List Nat) (power : Int) : Bool :=
  let n := Text.ofDigits 10 digits
  let limit := Nat.pow 2 1024 - Nat.pow 2 970
  if n = 0 then false
  else if power > 400 then true
  else if power ≥ 0 then limit ≤ n * Nat.pow 10 power.toNat
  else if power < -(400 + Int.ofNat digits.length) then false
  else limit * Nat.pow 10 power.natAbs ≤ n

/-- A float: an integer part with a fraction, an exponent or both. -/
def isFloat (cs : List Char) : Bool :=
  let (_, r) := signed cs
  if r = ['i', 'n', 'f'] ∨ r = ['n', 'a', 'n'] then true
  else
    let isMark (c : Char) : Bool := c == 'e' || c == 'E'
    let mantissa := r.takeWhile fun c => !isMark c
    let exponent := (r.dropWhile fun c => !isMark c).drop 1
    let hasExponent := r.any isMark
    let whole := mantissa.takeWhile fun c => c != '.'
    let fraction := (mantissa.dropWhile fun c => c != '.').drop 1
    let hasFraction := mantissa.any fun c => c == '.'
    match plainDigits? whole with
    | none => false
    | some ws =>
      match if hasFraction then grouped? Text.digit? fraction else some [] with
      | none => false
      | some fs =>
        let (negative, er) := signed exponent
        match if hasExponent then grouped? Text.digit? er else some [] with
        | none => false
        | some es =>
          let e := Int.ofNat (Text.ofDigits 10 es)
          (hasFraction || hasExponent) &&
            !overflows (ws ++ fs) ((if negative then -e else e) - Int.ofNat fs.length)

/-! ## Dates and times -/

/-- A number of exactly so many digits at the front. -/
def fixed? (n : Nat) (cs : List Char) : Option (Nat × List Char) :=
  let front := cs.take n
  if front.length = n then (front.mapM Text.digit?).map fun ds => (Text.ofDigits 10 ds, cs.drop n)
  else none

/-- What follows this character at the front. -/
def eat? (c : Char) (cs : List Char) : Option (List Char) :=
  match cs with
  | x :: r => if x = c then some r else none
  | [] => none

/-- The days of a month. -/
def daysIn (year month : Nat) : Nat :=
  if month = 2 then
    if year % 4 = 0 ∧ (year % 100 ≠ 0 ∨ year % 400 = 0) then 29 else 28
  else if month = 4 ∨ month = 6 ∨ month = 9 ∨ month = 11 then 30 else 31

/-- A calendar date at the front. -/
def date? (cs : List Char) : Option (List Char) := do
  let (year, r) ← fixed? 4 cs
  let r ← eat? '-' r
  let (month, r) ← fixed? 2 r
  let r ← eat? '-' r
  let (day, r) ← fixed? 2 r
  if 1 ≤ month ∧ month ≤ 12 ∧ 1 ≤ day ∧ day ≤ daysIn year month then some r else none

/-- The fraction of a second at the front, if there is one. -/
def secondFraction? (cs : List Char) : Option (List Char) :=
  match cs with
  | '.' :: c :: r => if c.isDigit then some (r.dropWhile Char.isDigit) else none
  | '.' :: _ => none
  | r => some r

/-- A time of day at the front; the seconds may be left out. -/
def time? (cs : List Char) : Option (List Char) := do
  let (hour, r) ← fixed? 2 cs
  let r ← eat? ':' r
  let (minute, r) ← fixed? 2 r
  if 24 ≤ hour ∨ 60 ≤ minute then none
  else match r with
    | ':' :: r =>
      let (second, r) ← fixed? 2 r
      if 60 < second then none else secondFraction? r
    | r => some r

/-- The whole rest is an offset from universal time, or nothing. -/
def isOffset (cs : List Char) : Bool :=
  match cs with
  | [] => true
  | ['Z'] => true
  | ['z'] => true
  | c :: r =>
    if c = '+' ∨ c = '-' then
      match (do
        let (hour, r) ← fixed? 2 r
        let r ← eat? ':' r
        let (minute, r) ← fixed? 2 r
        pure (hour < 24 && minute < 60 && r.isEmpty) : Option Bool) with
      | some b => b
      | none => false
    else false

/-- A date, a time of day, or both with or without an offset. -/
def isDate (cs : List Char) : Bool :=
  match date? cs with
  | some [] => true
  | some (c :: r) =>
    if c = 'T' ∨ c = 't' ∨ c = ' ' then
      match time? r with
      | some r => isOffset r
      | none => false
    else false
  | none => time? cs == some []

/-- The value that a run of characters writes. -/
def scalar? (cs : List Char) : Option Value :=
  if cs = ['t', 'r', 'u', 'e'] then some (.bool true)
  else if cs = ['f', 'a', 'l', 's', 'e'] then some (.bool false)
  else match integer? cs with
    | some i => some (.integer i)
    | none => if isFloat cs then some .float else if isDate cs then some .date else none

end SnippetRunner.Toml
