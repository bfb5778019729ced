/-
The units of an expression: literals and operators.
-/
import Keypad.Operator

namespace Keypad

/-- A unit of an expression. A literal is kept as the text that was typed; it
is read as a number only when the expression is evaluated. -/
inductive Token where
  | number (text : String)
  | operator (op : Operator)
  deriving Repr, DecidableEq

namespace Token

/-- The literal with no text, from which typing starts. -/
def emptyNumber : Token := number ""

def numberText? : Token → Option String
  | number text => some text
  | operator _ => none

def operator? : Token → Option Operator
  | number _ => none
  | operator op => some op

def isNumber (t : Token) : Bool := t.numberText?.isSome

def isOperator (t : Token) : Bool := t.operator?.isSome

/-- A token as text: a literal as typed, an operator as its symbol. -/
def text : Token → String
  | number text => text
  | operator op => op.text

end Token

end Keypad
