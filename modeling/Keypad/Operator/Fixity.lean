/-
How tightly an operator binds, and to which side it groups.
-/
import Keypad.Operator

namespace Keypad

/-- To which side `a # b # c` groups: `left` is `(a # b) # c`. -/
inductive Associativity where
  | left
  | right
  deriving Repr, DecidableEq

/-- How an operator binds. Higher precedences bind tighter. -/
structure Fixity where
  associativity : Associativity
  precedence : UInt64
  deriving Repr, DecidableEq

/-- Whether an operator with fixity `f` lets a pending operator with fixity
`g` take its operands first. At equal precedence a left-associative operator
does and a right-associative one does not. -/
def Fixity.yieldsTo (f g : Fixity) : Bool :=
  match f.associativity with
  | .left => f.precedence ≤ g.precedence
  | .right => f.precedence < g.precedence

/-- An operator together with how it binds. -/
structure Binding where
  operator : Operator
  fixity : Fixity
  deriving Repr, DecidableEq

end Keypad
