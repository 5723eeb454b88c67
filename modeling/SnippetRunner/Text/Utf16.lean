/-!
# UTF-16

Text in units of 16 bits. A character above U+FFFF is a pair of surrogates, a high one and a low one;
units in which a surrogate stands without its partner are no text.
-/

namespace SnippetRunner.Text

/-- The unit opens a pair. -/
def isHigh (u : UInt16) : Bool := 0xD800 ≤ u.toNat && u.toNat ≤ 0xDBFF

/-- The unit closes a pair. -/
def isLow (u : UInt16) : Bool := 0xDC00 ≤ u.toNat && u.toNat ≤ 0xDFFF

/-- The character that a pair stands for. -/
def ofPair (high low : UInt16) : Char :=
  Char.ofNat (0x10000 + (high.toNat - 0xD800) * 0x400 + (low.toNat - 0xDC00))

/-- The units of a code point: itself, or a pair. -/
def codeUnits (n : Nat) : List UInt16 :=
  if n < 0x10000 then [.ofNat n]
  else [.ofNat (0xD800 + (n - 0x10000) / 0x400), .ofNat (0xDC00 + (n - 0x10000) % 0x400)]

/-- The units of a text. -/
def utf16 (s : String) : List UInt16 := s.toList.flatMap fun c => codeUnits c.toNat

/-- The characters that the units encode, if every surrogate has its partner. -/
def unitChars? : List UInt16 → Option (List Char)
  | [] => some []
  | [u] => if isHigh u || isLow u then none else some [Char.ofNat u.toNat]
  | u :: v :: us =>
    if isHigh u then
      if isLow v then (unitChars? us).map (ofPair u v :: ·) else none
    else if isLow u then none
    else (unitChars? (v :: us)).map (Char.ofNat u.toNat :: ·)

/-- The text that the units encode, if they do. -/
def decodeUtf16? (us : List UInt16) : Option String := (unitChars? us).map String.ofList

end SnippetRunner.Text
