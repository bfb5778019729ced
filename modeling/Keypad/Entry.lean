/-
The expression as typed so far.

An entry is a list of tokens that is never empty. Typing extends it at its
end only: a digit always does, while a point and an operator are ignored
where they would break the form of the expression.
-/
import Keypad.Digit
import Keypad.Token

namespace Keypad

/-- The expression as typed so far: its last token, which typing goes on
with, and the tokens before it, the latest of them first. -/
structure Entry where
  earlier : List Token
  last : Token
  deriving Repr, DecidableEq

/-- Why a key was ignored. -/
inductive Refusal where
  /-- A decimal point where no literal has been begun. -/
  | pointAfterOperator
  /-- A decimal point in a literal that has one. -/
  | secondPoint (literal : String)
  /-- An operator where no literal has been typed. -/
  | missingLeftOperand (op : Operator)
  deriving Repr, DecidableEq

namespace Entry

/-- Nothing typed yet: a literal with no text. -/
def fresh : Entry := ⟨[], .emptyNumber⟩

def ofNumber (text : String) : Entry := ⟨[], .number text⟩

/-- The tokens in the order of typing. -/
def tokens (e : Entry) : List Token := (e.last :: e.earlier).reverse

/-- The entry of given tokens, whatever they are; without any it is fresh. -/
def ofTokens (ts : List Token) : Entry :=
  match ts.reverse with
  | [] => fresh
  | last :: earlier => ⟨earlier, last⟩

def size (e : Entry) : Nat := e.earlier.length + 1

/-- Types a digit: it extends the literal at the end or begins a new one. -/
def appendDigit (e : Entry) (d : Digit) : Entry :=
  match e.last with
  | .number text => { e with last := .number (text.push d.toChar) }
  | .operator _ => ⟨e.last :: e.earlier, .number (String.singleton d.toChar)⟩

/-- Types a decimal point. At the start of a literal it stands for `0.`. -/
def appendPoint (e : Entry) : Except Refusal Entry :=
  match e.last with
  | .operator _ => .error .pointAfterOperator
  | .number text =>
    if '.' ∈ text.toList then .error (.secondPoint text)
    else .ok { e with last := .number (if text = "" then "0." else text.push '.') }

/-- Types an operator, which needs a literal that is not empty before it. -/
def appendOperator (e : Entry) (op : Operator) : Except Refusal Entry :=
  match e.last with
  | .number text =>
    if text = "" then .error (.missingLeftOperand op)
    else .ok ⟨e.last :: e.earlier, .operator op⟩
  | .operator _ => .error (.missingLeftOperand op)

/-- A token as the display shows it: a literal as typed, and an operator with
a space on either side. -/
def shownToken : Token → List Char
  | .number text => text.toList
  | .operator op => [' ', op.symbol, ' ']

/-- The entry as the display shows it. -/
def display (e : Entry) : String := String.ofList (e.tokens.flatMap shownToken)

/-! ## The tokens of an entry -/

theorem tokens_eq (e : Entry) : e.tokens = e.earlier.reverse ++ [e.last] := by
  simp [tokens]

theorem tokens_ne_nil (e : Entry) : e.tokens ≠ [] := by
  simp [tokens]

@[simp] theorem length_tokens (e : Entry) : e.tokens.length = e.size := by
  simp [tokens, size]

@[simp] theorem tokens_fresh : fresh.tokens = [.emptyNumber] := rfl

@[simp] theorem tokens_ofNumber (text : String) : (ofNumber text).tokens = [.number text] := rfl

end Entry

end Keypad
