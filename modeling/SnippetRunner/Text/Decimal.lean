/-!
# Decimal numbers in text

Natural numbers written in decimal digits, and the three ways in which a text can fail to be one
that fits in 64 bits.
-/

namespace SnippetRunner.Text

/-- The greatest number of 64 bits. -/
def maxWord : Nat := Nat.pow 2 64 - 1

/-- The value of a decimal digit. -/
def digit? (c : Char) : Option Nat :=
  if '0' ≤ c ∧ c ≤ '9' then some (c.toNat - '0'.toNat) else none

/-- The value of a hexadecimal digit of either case. -/
def hexDigit? (c : Char) : Option Nat :=
  if '0' ≤ c ∧ c ≤ '9' then some (c.toNat - '0'.toNat)
  else if 'a' ≤ c ∧ c ≤ 'f' then some (c.toNat - 'a'.toNat + 10)
  else if 'A' ≤ c ∧ c ≤ 'F' then some (c.toNat - 'A'.toNat + 10)
  else none

/-- The number that the digits write in the given base, the first digit the most significant. -/
def ofDigits (base : Nat) (ds : List Nat) : Nat :=
  ds.foldl (fun n d => n * base + d) 0

/-- Why a text is not a number of 64 bits. -/
inductive WordError where
  | empty
  | invalidDigit
  | tooLarge
  deriving DecidableEq, Repr

/-- The cause in words. -/
def WordError.message : WordError → String
  | .empty => "cannot parse integer from empty string"
  | .invalidDigit => "invalid digit found in string"
  | .tooLarge => "number too large to fit in target type"

/-- The number after one more digit; of two faults at one character the digit comes first. -/
def pushDigit (n : Nat) (c : Char) : Except WordError Nat :=
  match digit? c with
  | none => .error .invalidDigit
  | some d => if n * 10 + d ≤ maxWord then .ok (n * 10 + d) else .error .tooLarge

/-- A number of 64 bits in decimal, after an optional plus sign. The first character that does not
fit decides the cause. -/
def word? (s : String) : Except WordError Nat :=
  match s.toList with
  | [] => .error .empty
  | ['+'] => .error .invalidDigit
  | '+' :: cs => cs.foldlM pushDigit 0
  | cs => cs.foldlM pushDigit 0

/-- The decimal digits of a number. -/
def decimal (n : Nat) : String :=
  String.ofList (Nat.toDigits 10 n)

/-- The decimal digits of an integer after its sign. -/
def signedDecimal : Int → String
  | .ofNat n => decimal n
  | .negSucc n => "-" ++ decimal (n + 1)

/-- The hexadecimal digits of a number, in lower case. -/
def hex (n : Nat) : String :=
  String.ofList (Nat.toDigits 16 n)

end SnippetRunner.Text
