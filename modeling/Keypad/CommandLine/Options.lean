/-
The options of the command line.

How arguments are written is left open; this is what can be asked for with
them.
-/
import Keypad.File

namespace Keypad.CommandLine

/-- An argument is made of any bytes. -/
abbrev Argument := List UInt8

def Argument.ofText (text : String) : Argument := text.toUTF8.toList

/-- What the arguments of a run ask for. -/
structure Options where
  /-- Keystrokes, in the order of the arguments. -/
  keys : List String
  /-- The path of the settings file. -/
  config : Option Path
  errorMarker : Option String
  showPostfix : Bool
  verbose : Bool
  deriving Repr, DecidableEq

inductive Request where
  | run (o : Options)
  /-- To print a text about the program, such as its version, and nothing
  else. -/
  | inform (text : String)
  deriving Repr, DecidableEq

end Keypad.CommandLine
