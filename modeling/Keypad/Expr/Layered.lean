/-
The value of an infix expression by the usual layers of arithmetic.

A sum is terms joined by `+` and `-`, a term is factors joined by `*` and
`/`, and a factor is literals joined by `^`. Terms and factors are combined
from the left, powers from the right.
-/
import Keypad.Expr

namespace Keypad.Layered

/-- Literals with operators between them: the first literal, and each further
one with the operator in front of it. -/
structure Run where
  first : String
  links : List (Operator × String)
  deriving Repr, DecidableEq

namespace Run

def tokens (r : Run) : List Token :=
  .number r.first :: r.links.flatMap fun (op, text) => [.operator op, .number text]

/-- Puts a literal and the operator after it in front of a run. -/
def cons (text : String) (op : Operator) (r : Run) : Run := ⟨text, (op, r.first) :: r.links⟩

end Run

/-- Runs with operators between them. -/
structure Cut where
  first : Run
  links : List (Operator × Run)
  deriving Repr, DecidableEq

/-- Cuts a run at the operators of one layer. -/
def cut (layer : Operator → Bool) : String → List (Operator × String) → Cut
  | first, [] => ⟨⟨first, []⟩, []⟩
  | first, (op, text) :: links =>
    let rest := cut layer text links
    if layer op then ⟨⟨first, []⟩, (op, rest.first) :: rest.links⟩
    else ⟨rest.first.cons first op, rest.links⟩

/-- Combines the values of runs from the left. -/
def Cut.combine (value : Run → Float) (c : Cut) : Float :=
  c.links.foldl (fun left (op, run) => op.apply left (value run)) (value c.first)

/-- Combines the values of literals from the right. -/
def combineRight : String → List (Operator × String) → Float
  | first, [] => NumberText.read first
  | first, (op, text) :: links => op.apply (NumberText.read first) (combineRight text links)

def factor (r : Run) : Float := combineRight r.first r.links

def term (r : Run) : Float :=
  (cut (fun op => op = .times || op = .divide) r.first r.links).combine factor

/-- The value of a sum, which is any expression. -/
def sum (r : Run) : Float :=
  (cut (fun op => op = .plus || op = .minus) r.first r.links).combine term

end Keypad.Layered
