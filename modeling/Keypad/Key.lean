/-
The keys of the calculator, and how text stands for them.
-/
import Keypad.Digit
import Keypad.Operator
import Keypad.Text.Blank

namespace Keypad

inductive Key where
  | digit (d : Digit)
  | point
  | operator (op : Operator)
  | solve
  | clear
  deriving Repr, DecidableEq

/-- A character that stands for no key, and how many characters stand before
it. -/
structure UnknownKey where
  char : Char
  position : Nat
  deriving Repr, DecidableEq

def UnknownKey.message (e : UnknownKey) : String :=
  s!"Unknown key '{e.char}' at position {e.position}."

namespace Key

/-- The keys other than digits and operators, by their characters. -/
def special? : Char → Option Key
  | '.' | ',' => some point
  | '=' => some solve
  | 'c' | 'C' => some clear
  | _ => none

/-- The key that a character stands for. -/
def ofChar? (c : Char) : Option Key :=
  ((Digit.ofChar? c).map digit).or (((Operator.ofChar? c).map operator).or (special? c))

/-- The keys of a text whose first character has `position` characters before
it. White space is skipped but counts. -/
def ofCharsFrom (position : Nat) : List Char → Except UnknownKey (List Key)
  | [] => .ok []
  | c :: cs =>
    if Text.isBlank c then ofCharsFrom (position + 1) cs
    else
      match ofChar? c with
      | none => .error ⟨c, position⟩
      | some key => (ofCharsFrom (position + 1) cs).map (key :: ·)

/-- The keys of a text, or its first character that stands for no key. -/
def ofText (text : String) : Except UnknownKey (List Key) := ofCharsFrom 0 text.toList

end Key

end Keypad
