/-
How an infix expression is grouped, said without a stack.

The operator that is applied last is one of lowest precedence: the last
left-associative one of them, or if there is none, the first of them. What
stands before it and what stands after it are grouped the same way.
-/
import Keypad.Expr
import Keypad.Operator.Table

namespace Keypad

/-- An infix expression that is complete: a literal, and further literals each
with an operator in front of it. -/
structure Chain where
  first : String
  links : List (Binding × String)
  deriving Repr, DecidableEq

namespace Chain

def tokens (c : Chain) : List Token :=
  .number c.first :: c.links.flatMap fun (b, text) => [.operator b.operator, .number text]

def fixities (c : Chain) : List Fixity := c.links.map fun (b, _) => b.fixity

/-- Whether no operator of a chain has a lower precedence than `f` has. -/
def isLowest (c : Chain) (f : Fixity) : Bool := c.fixities.all fun g => f.precedence ≤ g.precedence

/-- The position of the last left-associative operator of lowest precedence. -/
def lastLeft? (c : Chain) : Option Nat :=
  (c.fixities.reverse.findIdx? fun f => c.isLowest f && f.associativity == .left).map
    fun i => c.links.length - 1 - i

/-- The position of the first operator of lowest precedence. -/
def firstLowest? (c : Chain) : Option Nat := c.fixities.findIdx? c.isLowest

/-- The position of the operator that is applied last. -/
def root? (c : Chain) : Option Nat := c.lastLeft?.or c.firstLowest?

/-- The tree of a chain of at most `n` links. -/
def groupWithin : Nat → Chain → Expr
  | 0, c => .literal c.first
  | n + 1, c =>
    match c.root? with
    | none => .literal c.first
    | some i =>
      match c.links[i]? with
      | none => .literal c.first
      | some (b, text) =>
        .node b.operator (groupWithin n ⟨c.first, c.links.take i⟩)
          (groupWithin n ⟨text, c.links.drop (i + 1)⟩)

/-- The tree of a chain. -/
def group (c : Chain) : Expr := groupWithin c.links.length c

end Chain

end Keypad
