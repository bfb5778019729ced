/-
What the reduction of a postfix token list computes.

* `foldlM_reduceStep_postorder`: reducing the postorder of a tree pushes the
  value of the tree, whatever is on the stack.
* `postorder_injective`: a token list is the postorder of one tree at most.
-/
import Keypad.Expr
import Keypad.Proofs.Reordering

namespace Keypad

/-! ## Steps -/

/-- An operator takes the two operands pushed last, the first of them on the
left. -/
theorem reduceStep_operator (s : Stack Float) (op : Operator) (x y : Float) :
    reduceStep ((s.push x).push y) (.operator op) = .ok (s.push (op.apply x y)) := rfl

/-- An operator cannot do with one operand. -/
theorem reduceStep_operator_single (op : Operator) (x : Float) :
    reduceStep (Stack.empty.push x) (.operator op) = .error (.missingOperands op ⟨2, 1⟩) := rfl

theorem foldlM_reduceStep_concat (ts : List Token) (t : Token) (s : Stack Float) :
    (ts ++ [t]).foldlM reduceStep s = ts.foldlM reduceStep s >>= fun s' => reduceStep s' t := by
  simp only [List.foldlM_append, List.foldlM_cons, List.foldlM_nil, bind_pure]

theorem reduce_eq_error {order : List Token} {e : ReductionError}
    (h : order.foldlM reduceStep .empty = .error e) : reduce order = .error e := by
  simp only [reduce, h, error_bind]

theorem reduce_eq_ok {order : List Token} {x : Float}
    (h : order.foldlM reduceStep .empty = .ok (Stack.empty.push x)) : reduce order = .ok x := by
  simp only [reduce, h, ok_bind]
  rfl

/-! ## Trees -/

/-- **The postorder of a tree pushes its value.** -/
theorem foldlM_reduceStep_postorder (t : Expr) (s : Stack Float) :
    t.postorder.foldlM reduceStep s = .ok (s.push t.value) := by
  induction t generalizing s with
  | literal text => rfl
  | node op left right ihl ihr =>
    rw [Expr.postorder, foldlM_reduceStep_concat, List.foldlM_append, ihl, ok_bind, ihr, ok_bind,
      reduceStep_operator, Expr.value]

theorem reduce_postorder (t : Expr) : reduce t.postorder = .ok t.value :=
  reduce_eq_ok (foldlM_reduceStep_postorder t .empty)

namespace Expr

/-- Read from its end, a postorder says where it begins. -/
theorem append_postorder_inj {t t' : Expr} {xs xs' : List Token}
    (h : xs ++ t.postorder = xs' ++ t'.postorder) : xs = xs' ∧ t = t' := by
  induction t generalizing t' xs xs' with
  | literal text =>
    cases t' with
    | literal text' =>
      obtain ⟨hxs, hts⟩ := List.append_inj' h rfl
      cases hts
      exact ⟨hxs, rfl⟩
    | node op' left' right' =>
      simp only [postorder, ← List.append_assoc] at h
      cases (List.append_inj' h rfl).2
  | node op left right ihl ihr =>
    cases t' with
    | literal text' =>
      simp only [postorder, ← List.append_assoc] at h
      cases (List.append_inj' h rfl).2
    | node op' left' right' =>
      simp only [postorder, ← List.append_assoc] at h
      obtain ⟨hargs, hop⟩ := List.append_inj' h rfl
      cases hop
      obtain ⟨hleft, rfl⟩ := ihr hargs
      obtain ⟨rfl, rfl⟩ := ihl hleft
      exact ⟨rfl, rfl⟩

/-- **Postorder is uniquely readable.** -/
theorem postorder_injective {t t' : Expr} (h : t.postorder = t'.postorder) : t = t' :=
  (@append_postorder_inj t t' [] [] h).2

end Expr

end Keypad
