/-
What the calculator logs: events, their levels, and the records of them.

A record takes one line, or more if what was typed or the error marker has
line breaks in it.
-/
import Keypad.Entry
import Keypad.Evaluation
import Keypad.Text.Lines

namespace Keypad

namespace Log

/-- How severe an event is, the most severe first. -/
inductive Level where
  | error
  | warn
  | info
  | debug
  | trace
  deriving Repr, DecidableEq

namespace Level

/-- Every level, the most severe first. -/
def all : List Level := [error, warn, info, debug, trace]

def name : Level → String
  | error => "error"
  | warn => "warn"
  | info => "info"
  | debug => "debug"
  | trace => "trace"

/-- The position of a level, more severe ones being lower. -/
def rank (l : Level) : Nat := all.idxOf l

def ofName? (name : String) : Option Level := all.find? fun l => l.name == name

end Level

/-- What is worth a record. -/
inductive Event where
  | ignored (refusal : Refusal)
  /-- An expression was reduced, given in postfix order. -/
  | evaluated (order : List Token) (result : Except ReductionError Float)
  /-- The expression on display was solved. -/
  | solved (expression : String) (value : Float)
  /-- The expression on display could not be solved. -/
  | unsolved (expression : String) (error : EvaluationError)

/-- A result as records give it, in full detail. -/
def resultText : Except ReductionError Float → String
  | .ok x => s!"Ok({NumberText.write NumberText.log x})"
  | .error (.missingOperands op shortage) =>
    s!"Err(NotEnoughOperands \x7b operator: {op.name}, expected: {shortage.expected}, actual: {shortage.found} \x7d)"
  | .error (.leftover count) => s!"Err(LeftoverOperands \x7b count: {count} \x7d)"
  | .error .empty => "Err(Empty)"

namespace Event

def level : Event → Level
  | ignored _ => .trace
  | evaluated _ _ => .debug
  | solved _ _ => .debug
  | unsolved _ _ => .info

/-- The part of the program that an event is about. -/
def target : Event → String
  | ignored _ => "awesome_calc::builder"
  | evaluated _ _ => "awesome_calc::evaluator"
  | solved _ _ => "awesome_calc::session"
  | unsolved _ _ => "awesome_calc::session"

/-- The record of an event, but for the time of it and for colours. -/
def record : Event → String
  | ignored .pointAfterOperator =>
    "TRACE awesome_calc::builder: ignoring decimal point after an operator"
  | ignored (.secondPoint literal) =>
    s!"TRACE awesome_calc::builder: ignoring second decimal point literal={literal}"
  | ignored (.missingLeftOperand op) =>
    s!"TRACE awesome_calc::builder: ignoring operator without a left operand operator={op.text}"
  | evaluated order result =>
    s!"DEBUG awesome_calc::evaluator: evaluated expression postfix={spacedText order} result={resultText result}"
  | solved expression value =>
    s!"DEBUG awesome_calc::session: solved expression={expression} value={NumberText.write NumberText.log value}"
  | unsolved expression error =>
    s!"INFO awesome_calc::session: could not solve expression={expression} error={error.message}"

end Event

/-- Which events are logged. -/
abbrev Filter := Event → Bool

/-- The events of a level and of more severe ones. -/
def upTo (l : Level) : Filter := fun e => e.level.rank ≤ l.rank

/-- No events. -/
def off : Filter := fun _ => false

/-- The records of the events that a filter lets through. -/
def records (filter : Filter) (events : List Event) : List String :=
  (events.filter filter).map Event.record

/-- The lines of these records. -/
def lines (filter : Filter) (events : List Event) : List String :=
  Text.lines (Text.unlines (records filter events))

end Log

end Keypad
