/-
Postfix order: every operator after its operands.

An infix token list is read from left to right. A literal is emitted at
once. An operator first has the pending operators emitted that it yields to,
from the latest one on, and is then pending itself. What is pending at the
end is emitted, the latest first. Nothing is said about operands here: any
token list has a postfix order, as long as its operators are defined.
-/
import Keypad.Operator.Table
import Keypad.Token

namespace Keypad

/-- An operator that the operator table does not define. -/
structure UnknownOperator where
  operator : Operator
  deriving Repr, DecidableEq

def UnknownOperator.message (e : UnknownOperator) : String :=
  s!"Operator '{e.operator.text}' is not defined in the operator table."

/-- A reordering under way: the tokens emitted and the operators pending,
both with the latest one first. -/
structure Reordering where
  emitted : List Token
  pending : List Binding
  deriving Repr, DecidableEq

namespace Reordering

def start : Reordering := ⟨[], []⟩

/-- Emits pending operators, from the latest one on, as long as an operator
with fixity `f` yields to them. -/
def release (r : Reordering) (f : Fixity) : Reordering :=
  let yielded := r.pending.takeWhile fun b => f.yieldsTo b.fixity
  ⟨(yielded.map fun b => .operator b.operator).reverse ++ r.emitted,
    r.pending.drop yielded.length⟩

def step (table : OperatorTable) (r : Reordering) : Token → Except UnknownOperator Reordering
  | .number text => .ok { r with emitted := .number text :: r.emitted }
  | .operator op =>
    match table.fixity? op with
    | none => .error ⟨op⟩
    | some f =>
      let released := r.release f
      .ok { released with pending := ⟨op, f⟩ :: released.pending }

/-- All tokens read so far in postfix order. -/
def finish (r : Reordering) : List Token :=
  r.emitted.reverse ++ r.pending.map fun b => .operator b.operator

end Reordering

def toPostfix (table : OperatorTable) (tokens : List Token) : Except UnknownOperator (List Token) :=
  (tokens.foldlM (Reordering.step table) .start).map Reordering.finish

/-! ## One token at a time -/

namespace Reordering

/-- What an operator leaves pending begins with the first one it does not
yield to. -/
theorem pending_release (r : Reordering) (f : Fixity) :
    (r.release f).pending = r.pending.dropWhile fun b => f.yieldsTo b.fixity := by
  simp only [release]
  generalize r.pending = bs
  induction bs with
  | nil => rfl
  | cons b bs ih =>
    by_cases h : f.yieldsTo b.fixity
    · simp [h, ih]
    · simp [h]

/-- Emitting pending operators does not change the order so far. -/
theorem finish_release (r : Reordering) (f : Fixity) : (r.release f).finish = r.finish := by
  obtain ⟨emitted, pending⟩ := r
  simp only [release, finish, List.reverse_append, List.reverse_reverse, List.append_assoc,
    List.append_cancel_left_eq, ← List.map_append]
  congr 1
  induction pending with
  | nil => rfl
  | cons b bs ih =>
    by_cases h : f.yieldsTo b.fixity
    · simpa [List.takeWhile_cons, h] using ih
    · simp [h]

@[simp] theorem finish_start : start.finish = [] := rfl

end Reordering

@[simp] theorem toPostfix_nil (table : OperatorTable) : toPostfix table [] = .ok [] := rfl

/-! ## As text -/

/-- Tokens with single spaces between them, as a postfix order is shown. -/
def spacedText (tokens : List Token) : String :=
  String.ofList ([' '].intercalate (tokens.map fun t => t.text.toList))

end Keypad
