/-
The five operators of the keypad: their symbols and what they compute.
-/

namespace Keypad

/-- An operator of the keypad. Each one takes two operands. -/
inductive Operator where
  | plus
  | minus
  | times
  | divide
  | power
  deriving Repr, DecidableEq

namespace Operator

/-- Every operator, in the order of the keypad. -/
def all : List Operator := [plus, minus, times, divide, power]

def symbol : Operator → Char
  | plus => '+'
  | minus => '-'
  | times => '*'
  | divide => '/'
  | power => '^'

def text (op : Operator) : String := String.singleton op.symbol

/-- The name that log records use. -/
def name : Operator → String
  | plus => "Plus"
  | minus => "Minus"
  | times => "Times"
  | divide => "Divide"
  | power => "Power"

def ofChar? (c : Char) : Option Operator := all.find? fun op => op.symbol == c

@[simp] theorem ofChar?_symbol (op : Operator) : ofChar? op.symbol = some op := by
  cases op <;> rfl

theorem ofChar?_eq_some_iff {c : Char} {op : Operator} : ofChar? c = some op ↔ c = op.symbol := by
  constructor
  · intro h
    have := List.find?_some h
    simpa using (beq_iff_eq.mp this).symm
  · rintro rfl
    exact ofChar?_symbol op

/-- Applies an operator to two operands, the one entered first on the left.
Division by zero and overflow are no errors: they give infinities and NaN. -/
def apply : Operator → Float → Float → Float
  | plus, left, right => left + right
  | minus, left, right => left - right
  | times, left, right => left * right
  | divide, left, right => left / right
  | power, left, right => Float.pow left right

end Operator

/-- A character that was to be an operator symbol and is none. -/
structure NotAnOperator where
  char : Char
  deriving Repr, DecidableEq

def NotAnOperator.message (e : NotAnOperator) : String := s!"'{e.char}' is not an operator symbol"

end Keypad
