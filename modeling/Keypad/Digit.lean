/-
The decimal digits, `0` to `9`.
-/

namespace Keypad

/-- A decimal digit. -/
structure Digit where
  value : Nat
  value_le : value ≤ 9
  deriving Repr, DecidableEq

namespace Digit

def ofNat? (n : Nat) : Option Digit := if h : n ≤ 9 then some ⟨n, h⟩ else none

def toChar (d : Digit) : Char := Char.ofNat ('0'.toNat + d.value)

/-- The digit that a character shows. Only the ASCII digits are digits. -/
def ofChar? (c : Char) : Option Digit :=
  if c.isDigit then ofNat? (c.toNat - '0'.toNat) else none

@[simp] theorem ofChar?_toChar (d : Digit) : ofChar? d.toChar = some d := by
  obtain ⟨n, h⟩ := d
  match n, h with
  | 0, _ | 1, _ | 2, _ | 3, _ | 4, _ | 5, _ | 6, _ | 7, _ | 8, _ | 9, _ => rfl

end Digit

/-- A character that was to be a digit and is none. -/
structure NotADigit where
  char : Char
  deriving Repr, DecidableEq

def NotADigit.message (e : NotADigit) : String := s!"'{e.char}' is not a decimal digit"

end Keypad
