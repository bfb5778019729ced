/-
Files: their paths, and what can go wrong with reading them.
-/
import Keypad.Text.Lossy

namespace Keypad

/-- A path is made of any bytes. -/
structure Path where
  bytes : List UInt8
  deriving Repr, DecidableEq

namespace Path

def ofText (text : String) : Path := ⟨text.toUTF8.toList⟩

/-- The path as messages show it. -/
def shown (p : Path) : String := Text.lossy p.bytes

end Path

inductive ReadError where
  | missing
  | notFolder
  | isFolder
  | nameTooLong
  | nulInName
  | notText
  /-- Anything else, in the words of the operating system. -/
  | other (description : String)
  deriving Repr, DecidableEq

def ReadError.message : ReadError → String
  | missing => "No such file or directory (os error 2)"
  | notFolder => "Not a directory (os error 20)"
  | isFolder => "Is a directory (os error 21)"
  | nameTooLong => "File name too long (os error 36)"
  | nulInName => "file name contained an unexpected NUL byte"
  | notText => "stream did not contain valid UTF-8"
  | other description => description

end Keypad
