import SnippetRunner.Text.Decimal
import SnippetRunner.Text.Hidden

/-!
# Quoted text

The form in which messages show a name exactly: between double quotes, with short escapes for the
common control characters and the number of every other character that has no visible form.
-/

namespace SnippetRunner.Text

/-- One character inside the quotes. -/
def quotedChar (c : Char) : List Char :=
  match c with
  | '\x00' => ['\\', '0']
  | '\t' => ['\\', 't']
  | '\r' => ['\\', 'r']
  | '\n' => ['\\', 'n']
  | '"' => ['\\', '"']
  | '\\' => ['\\', '\\']
  | _ =>
    if isHidden c then ['\\', 'u', '\x7b'] ++ Nat.toDigits 16 c.toNat ++ ['\x7d'] else [c]

/-- The text between double quotes. -/
def quoted (s : String) : String :=
  String.ofList ('"' :: s.toList.flatMap quotedChar ++ ['"'])

end SnippetRunner.Text
