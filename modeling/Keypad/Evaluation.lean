/-
Evaluation of expressions: into postfix order, then on a stack of operands.

A literal pushes its value. An operator takes its right operand from the top
of the stack and its left operand from below it, and pushes the result. An
expression is well-formed if this ends with exactly one value.
-/
import Keypad.NumberText
import Keypad.Postfix
import Keypad.Stack

namespace Keypad

/-- Why a postfix token list has no value. -/
inductive ReductionError where
  /-- An operator was reached with too few operands. -/
  | missingOperands (op : Operator) (shortage : Shortage)
  /-- More than one value was left at the end. -/
  | leftover (count : Nat)
  /-- There was no value at the end. -/
  | empty
  deriving Repr, DecidableEq

/-- Why an infix token list has no value. -/
inductive EvaluationError where
  | unknownOperator (e : UnknownOperator)
  | irreducible (e : ReductionError)
  deriving Repr, DecidableEq

namespace ReductionError

def message : ReductionError → String
  | missingOperands op shortage =>
    s!"Operator '{op.text}' needs {shortage.expected} operands but only {shortage.found} were available."
  | leftover count => s!"Expression left {count} values behind instead of one."
  | empty => "Expression produced no value."

end ReductionError

def EvaluationError.message : EvaluationError → String
  | unknownOperator e => e.message
  | irreducible e => e.message

def reduceStep (operands : Stack Float) : Token → Except ReductionError (Stack Float)
  | .number text => .ok (operands.push (NumberText.read text))
  | .operator op =>
    match operands.popPair with
    | .ok ((left, right), rest) => .ok (rest.push (op.apply left right))
    | .error shortage => .error (.missingOperands op shortage)

/-- The one value on a stack of operands. -/
def soleValue (operands : Stack Float) : Except ReductionError Float :=
  match operands.single with
  | .ok x => .ok x
  | .error 0 => .error .empty
  | .error count => .error (.leftover count)

/-- The value of a postfix token list. -/
def reduce (postfixTokens : List Token) : Except ReductionError Float := do
  soleValue (← postfixTokens.foldlM reduceStep .empty)

/-- The value of an infix token list. -/
def evaluate (table : OperatorTable) (tokens : List Token) : Except EvaluationError Float :=
  match toPostfix table tokens with
  | .error e => .error (.unknownOperator e)
  | .ok order => (reduce order).mapError .irreducible

end Keypad
