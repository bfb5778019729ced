/-
The calculator: an entry under settings, changed by one key at a time.

Solving puts the result of the entry in its place, or the error marker if
there is none. Both are text like any other: typing goes on from there.
-/
import Keypad.Key
import Keypad.Log
import Keypad.Settings

namespace Keypad

/-- The calculator between two keys. -/
structure Calculator where
  settings : Settings
  entry : Entry
  deriving Repr, DecidableEq

/-- What came out of solving an expression. -/
abbrev Outcome := Except EvaluationError Float

/-- What a key does: the calculator after it, the outcome if the key solved
an expression, and what is logged. -/
structure Reaction where
  calculator : Calculator
  outcome? : Option Outcome
  log : List Log.Event

namespace Calculator

/-- A calculator on which nothing has been typed. -/
def new (settings : Settings) : Calculator := ⟨settings, .fresh⟩

def display (c : Calculator) : String := c.entry.display

/-- The postfix order of the entry as text. It exists, as every operator is
defined in the common table. -/
def postfixText? (c : Calculator) : Option String :=
  match toPostfix .common c.entry.tokens with
  | .ok order => some (spacedText order)
  | .error _ => none

def clear (c : Calculator) : Calculator := { c with entry := .fresh }

def outcomeText (c : Calculator) : Outcome → String
  | .ok value => NumberText.shown value
  | .error _ => c.settings.errorMarker

def outcomeEvent (c : Calculator) : Outcome → Log.Event
  | .ok value => .solved c.display value
  | .error e => .unsolved c.display e

/-- Puts an outcome in the place of the entry. -/
def conclude (c : Calculator) (log : List Log.Event) (outcome : Outcome) : Reaction where
  calculator := { c with entry := .ofNumber (c.outcomeText outcome) }
  outcome? := some outcome
  log := log ++ [c.outcomeEvent outcome]

/-- Evaluates the entry under the common operators and puts the outcome in
its place. -/
def solve (c : Calculator) : Reaction :=
  match toPostfix .common c.entry.tokens with
  | .error e => c.conclude [] (.error (.unknownOperator e))
  | .ok order =>
    let result := reduce order
    c.conclude [.evaluated order result] (result.mapError .irreducible)

/-- Changes the entry, unless the change is refused. -/
def edit (c : Calculator) : Except Refusal Entry → Reaction
  | .ok entry => ⟨{ c with entry }, none, []⟩
  | .error refusal => ⟨c, none, [.ignored refusal]⟩

def press (c : Calculator) : Key → Reaction
  | .digit d => c.edit (.ok (c.entry.appendDigit d))
  | .point => c.edit c.entry.appendPoint
  | .operator op => c.edit (c.entry.appendOperator op)
  | .clear => ⟨c.clear, none, []⟩
  | .solve => c.solve

end Calculator

/-- What a list of keys does: the calculator after it, the outcomes of the
keys that solved an expression, and what is logged. -/
structure Transcript where
  calculator : Calculator
  outcomes : List Outcome
  log : List Log.Event

def Calculator.pressAll (c : Calculator) : List Key → Transcript
  | [] => ⟨c, [], []⟩
  | key :: keys =>
    let reaction := c.press key
    let rest := reaction.calculator.pressAll keys
    ⟨rest.calculator, reaction.outcome?.toList ++ rest.outcomes, reaction.log ++ rest.log⟩

namespace Calculator

/-! ## Keys in parts -/

@[simp] theorem pressAll_nil (c : Calculator) : c.pressAll [] = ⟨c, [], []⟩ := rfl

theorem pressAll_cons (c : Calculator) (key : Key) (keys : List Key) :
    (c.pressAll (key :: keys)).calculator = ((c.press key).calculator.pressAll keys).calculator :=
  rfl

/-- Keys may be pressed in two parts. -/
theorem pressAll_append (c : Calculator) (keys more : List Key) :
    c.pressAll (keys ++ more) =
      let first := c.pressAll keys
      let rest := first.calculator.pressAll more
      ⟨rest.calculator, first.outcomes ++ rest.outcomes, first.log ++ rest.log⟩ := by
  induction keys generalizing c with
  | nil => rfl
  | cons key keys ih => simp only [List.cons_append, pressAll, ih, List.append_assoc]

/-- Pressing keys in two parts ends where pressing them all does. -/
theorem calculator_pressAll_append (c : Calculator) (keys more : List Key) :
    (c.pressAll (keys ++ more)).calculator =
      ((c.pressAll keys).calculator.pressAll more).calculator := by
  rw [pressAll_append]

theorem outcomes_pressAll_append (c : Calculator) (keys more : List Key) :
    (c.pressAll (keys ++ more)).outcomes =
      (c.pressAll keys).outcomes ++ ((c.pressAll keys).calculator.pressAll more).outcomes := by
  rw [pressAll_append]

theorem log_pressAll_append (c : Calculator) (keys more : List Key) :
    (c.pressAll (keys ++ more)).log =
      (c.pressAll keys).log ++ ((c.pressAll keys).calculator.pressAll more).log := by
  rw [pressAll_append]

/-- Solving answers the value of the entry under the common operators. -/
theorem outcome?_solve (c : Calculator) :
    c.solve.outcome? = some (evaluate .common c.entry.tokens) := by
  simp only [solve, evaluate]
  cases toPostfix .common c.entry.tokens <;> rfl

@[simp] theorem settings_press (c : Calculator) (key : Key) :
    (c.press key).calculator.settings = c.settings := by
  cases key with
  | digit d => rfl
  | point =>
    simp only [press, edit]
    split <;> rfl
  | operator op =>
    simp only [press, edit]
    split <;> rfl
  | solve =>
    simp only [press, solve]
    split <;> rfl
  | clear => rfl

end Calculator

end Keypad
