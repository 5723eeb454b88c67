/-!
# Reading bytes as UTF-8

A decoder that takes one byte at a time. Three readings are built on it: the strict one, which
refuses a malformed sequence; the lenient one, which writes U+FFFD for each maximal malformed part;
and the incremental one, for bytes that arrive in chunks, which holds back a character whose end has
not arrived.
-/

namespace SnippetRunner.Text

/-- The bytes of a text, each character in its UTF-8 form. -/
def utf8 (s : String) : List UInt8 :=
  s.toList.flatMap String.utf8EncodeChar

/-- The character that stands for a malformed part. -/
def replacement : Char := '\uFFFD'

/-- A character of which the last bytes are missing. -/
structure Unfinished where
  /-- The bytes that have arrived, in order. -/
  bytes : List UInt8
  /-- The bits of the code point that they give. -/
  code : Nat
  /-- The least value the next byte may have. -/
  low : UInt8
  /-- The greatest value the next byte may have. -/
  high : UInt8
  /-- How many bytes are missing after the next one. -/
  after : Nat
  deriving DecidableEq, Repr

/-- What a byte amounts to at the start of a character. -/
inductive Lead where
  /-- It is a whole character. -/
  | whole (c : Char)
  /-- It opens a character of several bytes. -/
  | opens (u : Unfinished)
  /-- No character starts with it. -/
  | malformed
  deriving DecidableEq, Repr

/-- The reading of a byte at the start of a character. The narrower ranges after `E0`, `ED`, `F0`
and `F4` keep out overlong forms, surrogates and code points above U+10FFFF. -/
def lead (b : UInt8) : Lead :=
  let n := b.toNat
  if n < 0x80 then .whole (Char.ofNat n)
  else if n < 0xC2 then .malformed
  else if n < 0xE0 then .opens ⟨[b], n - 0xC0, 0x80, 0xBF, 0⟩
  else if n < 0xF0 then
    .opens ⟨[b], n - 0xE0, if b = 0xE0 then 0xA0 else 0x80, if b = 0xED then 0x9F else 0xBF, 1⟩
  else if n < 0xF5 then
    .opens ⟨[b], n - 0xF0, if b = 0xF0 then 0x90 else 0x80, if b = 0xF4 then 0x8F else 0xBF, 2⟩
  else .malformed

/-- A decoded text in the making: the parts read so far, the newest first, `none` for a malformed
part, and the character that is still unfinished. -/
structure Decoding where
  parts : List (Option Char)
  unfinished : Option Unfinished

/-- The decoding of no bytes. -/
def Decoding.start : Decoding := ⟨[], none⟩

/-- One byte at the start of a character. -/
def Decoding.fresh (parts : List (Option Char)) (b : UInt8) : Decoding :=
  match lead b with
  | .whole c => ⟨some c :: parts, none⟩
  | .opens u => ⟨parts, some u⟩
  | .malformed => ⟨none :: parts, none⟩

/-- One byte more. A byte that cannot continue the unfinished character makes that a malformed part
and is then read at the start of a character. -/
def Decoding.push (d : Decoding) (b : UInt8) : Decoding :=
  match d.unfinished with
  | none => .fresh d.parts b
  | some u =>
    if u.low ≤ b ∧ b ≤ u.high then
      let code := u.code * 64 + (b.toNat - 0x80)
      match u.after with
      | 0 => ⟨some (Char.ofNat code) :: d.parts, none⟩
      | n + 1 => ⟨d.parts, some ⟨u.bytes ++ [b], code, 0x80, 0xBF, n⟩⟩
    else .fresh (none :: d.parts) b

/-- The decoding of a byte sequence from its start. -/
def Decoding.ofBytes (bs : List UInt8) : Decoding :=
  bs.foldl Decoding.push .start

/-- No malformed part has been read, though a character may be unfinished. -/
def Decoding.wellFormed (d : Decoding) : Bool :=
  d.parts.all Option.isSome

/-- The text of the parts, U+FFFD for each malformed one; an unfinished character is left out. -/
def Decoding.text (d : Decoding) : String :=
  String.ofList (d.parts.foldl (fun cs p => p.getD replacement :: cs) [])

/-- The text of the parts, in which an unfinished character counts as a malformed part. -/
def Decoding.finish (d : Decoding) : String :=
  match d.unfinished with
  | none => d.text
  | some _ => Decoding.text ⟨none :: d.parts, none⟩

/-- The text that the bytes encode, if they are well formed. -/
def decode? (bs : List UInt8) : Option String :=
  let d := Decoding.ofBytes bs
  if d.wellFormed && d.unfinished.isNone then some d.text else none

/-- The text of the bytes, with U+FFFD for each maximal malformed part. -/
def decodeLossy (bs : List UInt8) : String :=
  (Decoding.ofBytes bs).finish

/-- What can be read of bytes to which more may be added: the text, and the bytes to keep for later.
An unfinished character at the end is kept only where all before it is well formed; with a malformed
part among them all bytes are read at once. -/
def takeText (pending : List UInt8) : String × List UInt8 :=
  let d := Decoding.ofBytes pending
  match d.wellFormed, d.unfinished with
  | true, some u => (d.text, u.bytes)
  | true, none => (d.text, [])
  | false, _ => (d.finish, [])

end SnippetRunner.Text
