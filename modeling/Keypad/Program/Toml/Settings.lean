/-
Settings files in TOML.

The keys of a document are looked at in alphabetical order.
-/
import Keypad.NumberText
import Keypad.Program.Toml.Document
import Keypad.Settings.Document

namespace Keypad.Program.Toml

-- Powers are those of the core library, whatever else is in scope.
attribute [local instance (high)] instPowNat

/-- What messages call an integer. -/
def integerName (n : Int) : String :=
  if -2 ^ (63 : Nat) ≤ n ∧ n < 2 ^ (64 : Nat) then s!"integer `{n}`"
  else if n < 2 ^ (127 : Nat) then s!"integer `{n}` as i128"
  else s!"integer `{n}` as u128"

/-- Numbers in messages always show a decimal point. -/
def messageStyle : NumberText.Style := ⟨"inf", true, Decimal.pointed⟩

def Value.forSettings : Value → Settings.Value
  | string text => .string text
  | integer n => .other (integerName n)
  | float x => .other s!"floating point `{NumberText.write messageStyle x}`"
  | unreadable => .unreadable "unreadable number"
  | boolean b => .boolean b
  | array _ | tables _ _ => .other "sequence"
  | datetime _ | table _ _ => .other "map"

def readSettings (text : String) : Except String Settings.Entries :=
  match Document.ofText? text with
  | some es => .ok ((es.map fun p => (p.1, p.2.forSettings)).mergeSort fun a b => a.1 ≤ b.1)
  | none => .error "malformed document"

/-- The format of settings files. What is said about an error does not give its
place. -/
def format : Settings.Format := ⟨readSettings, fun _ e => e.message⟩

end Keypad.Program.Toml
