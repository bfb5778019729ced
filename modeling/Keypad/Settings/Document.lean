/-
Settings given by a document.

How documents are written is left open: a format reads a text as keys with
values. The keys are looked at in the order in which the format gives them,
and the first one that is unknown or has a value of the wrong type is
reported.
-/
import Keypad.Settings
import Keypad.Text.Quoted

namespace Keypad.Settings

/-- A value of a document, as far as settings tell values apart. -/
inductive Value where
  | string (text : String)
  | boolean (b : Bool)
  /-- A value of another type, by what messages call it. -/
  | other (name : String)
  /-- What turns out to be no value where it is asked for. -/
  | unreadable (why : String)
  deriving Repr, DecidableEq

/-- The keys and values of a document. -/
abbrev Entries := List (String × Value)

inductive DocumentError where
  /-- The text is no document, or holds a value that cannot be read. -/
  | malformed (why : String)
  /-- The document has a key that is no setting. -/
  | unknownKey (key : String)
  /-- A setting has a value of the wrong type. -/
  | wrongType (found : String) (expected : String)
  deriving Repr, DecidableEq

def DocumentError.message : DocumentError → String
  | malformed why => why
  | unknownKey key => s!"unknown field `{key}`, expected `error_marker` or `show_postfix`"
  | wrongType found expected => s!"invalid type: {found}, expected {expected}"

/-- A way to write documents. -/
structure Format where
  /-- The keys and values of a text, or why it is no document. -/
  read : String → Except String Entries
  /-- What is said about a text that gives no settings. Besides the message
  this may be the place of the error in the text. -/
  explain : String → DocumentError → String

/-- No document has a key twice. -/
def Format.DistinctKeys (format : Format) : Prop :=
  ∀ text es, format.read text = .ok es → (es.map Prod.fst).Nodup

/-- The error that a value of the wrong type is. -/
def mistyped (expected : String) : Value → DocumentError
  | .string text => .wrongType s!"string {Text.quoted text}" expected
  | .boolean b => .wrongType s!"boolean `{b}`" expected
  | .other name => .wrongType name expected
  | .unreadable why => .malformed why

def set (s : Settings) : String × Value → Except DocumentError Settings
  | ("error_marker", .string text) => .ok { s with errorMarker := text }
  | ("error_marker", v) => .error (mistyped "a string" v)
  | ("show_postfix", .boolean b) => .ok { s with showPostfix := b }
  | ("show_postfix", v) => .error (mistyped "a boolean" v)
  | (key, _) => .error (.unknownKey key)

/-- The settings of a document: those it does not mention are the default
ones. -/
def ofEntries (es : Entries) : Except DocumentError Settings := es.foldlM set .default

def ofText (format : Format) (text : String) : Except DocumentError Settings :=
  match format.read text with
  | .ok es => ofEntries es
  | .error why => .error (.malformed why)

end Keypad.Settings
