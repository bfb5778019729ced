/-
Expression trees, and the two listings and the value of a tree.

A tree is what a token list means: `inorder` lists its literals and operators
as they are typed, `postorder` as they are evaluated on a stack.
-/
import Keypad.Evaluation

namespace Keypad

/-- An expression: a literal, or an operator with its operands. -/
inductive Expr where
  | literal (text : String)
  | node (op : Operator) (left right : Expr)
  deriving Repr, DecidableEq

namespace Expr

/-- The tokens of a tree, every operator between its operands. -/
def inorder : Expr → List Token
  | literal text => [.number text]
  | node op left right => left.inorder ++ .operator op :: right.inorder

/-- The tokens of a tree, every operator after its operands. -/
def postorder : Expr → List Token
  | literal text => [.number text]
  | node op left right => left.postorder ++ right.postorder ++ [.operator op]

def value : Expr → Float
  | literal text => NumberText.read text
  | node op left right => op.apply left.value right.value

end Expr

end Keypad
