import SnippetRunner.Text.Decimal

/-!
# File errors

Why the operating system refuses to work with a file, and the words in which it says so.
-/

namespace SnippetRunner

/-- Why an operation on files failed. -/
inductive FileError where
  | notFound
  | execFormat
  | permissionDenied
  | exists
  | notADirectory
  | isADirectory
  | brokenPipe
  | nameTooLong
  | tooManyLinks
  /-- The path holds a byte of value zero. -/
  | nulByte
  /-- A command or one of its arguments holds a byte of value zero. -/
  | nulArgument
  /-- The content is no text. -/
  | invalidText
  deriving DecidableEq, Repr

/-- The error number, where the system has one. -/
def FileError.number? : FileError → Option Nat
  | .notFound => some 2
  | .execFormat => some 8
  | .permissionDenied => some 13
  | .exists => some 17
  | .notADirectory => some 20
  | .isADirectory => some 21
  | .brokenPipe => some 32
  | .nameTooLong => some 36
  | .tooManyLinks => some 40
  | .nulByte => none
  | .nulArgument => none
  | .invalidText => none

/-- The error in words, without its number. -/
def FileError.words : FileError → String
  | .notFound => "No such file or directory"
  | .execFormat => "Exec format error"
  | .permissionDenied => "Permission denied"
  | .exists => "File exists"
  | .notADirectory => "Not a directory"
  | .isADirectory => "Is a directory"
  | .brokenPipe => "Broken pipe"
  | .nameTooLong => "File name too long"
  | .tooManyLinks => "Too many levels of symbolic links"
  | .nulByte => "file name contained an unexpected NUL byte"
  | .nulArgument => "nul byte found in provided data"
  | .invalidText => "stream did not contain valid UTF-8"

/-- The error in words, with its number if it has one. -/
def FileError.message (e : FileError) : String :=
  match e.number? with
  | none => e.words
  | some n => e.words ++ " (os error " ++ Text.decimal n ++ ")"

end SnippetRunner
