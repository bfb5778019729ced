/-
Settings given by a file.
-/
import Keypad.File
import Keypad.Settings.Document

namespace Keypad.Settings

inductive FileError where
  | unreadable (path : Path) (e : ReadError)
  /-- The text of the file gives no settings. -/
  | invalid (path : Path) (e : DocumentError) (explanation : String)
  deriving Repr, DecidableEq

namespace FileError

/-- The message for the user, without the cause. -/
def message : FileError → String
  | unreadable path _ => s!"Could not read settings file {path.shown}"
  | invalid path _ _ => s!"Invalid settings file {path.shown}"

/-- The message about the cause. -/
def cause : FileError → String
  | unreadable _ e => e.message
  | invalid _ _ explanation => explanation

end FileError

/-- The settings of the file at a path, where `content` is what reading the
file answers. -/
def ofFile (format : Format) (path : Path) (content : Except ReadError (List UInt8)) :
    Except FileError Settings :=
  match content with
  | .error e => .error (.unreadable path e)
  | .ok bytes =>
    match Text.ofBytes? bytes with
    | none => .error (.unreadable path .notText)
    | some text => (ofText format text).mapError fun e => .invalid path e (format.explain text e)

end Keypad.Settings
