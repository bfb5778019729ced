/-
What the reduction of any token list comes to.

Read from the left, a literal adds an operand, and an operator takes two and
adds one. As long as no operator lacks an operand, what has been read is the
postorder of a row of trees, the values of which are on the stack.

* `exists_forest_or_short`: a token list is the postorder of a row of trees,
  or it has a first operator that lacks an operand.
* `reduce_forest`, `reduce_of_isFirstShort`: what reduction answers in either
  case.
* `reduce_determined`: reduction of an arbitrary token list.
-/
import Mathlib.Data.List.Induction
import Keypad.Proofs.Reduction

namespace Keypad

/-- How many more literals than operators a token list has. -/
def surplus (ts : List Token) : Int := (literals ts).length - (operators ts).length

/-- No operator of a token list lacks an operand. -/
def Supplied (ts : List Token) : Prop :=
  ∀ before op, before ++ [.operator op] <+: ts → 2 ≤ surplus before

/-- The operator after `before` is the first one of a token list that lacks an
operand. -/
structure IsFirstShort (ts before : List Token) (op : Operator) : Prop where
  isPrefix : before ++ [.operator op] <+: ts
  short : surplus before < 2
  supplied : Supplied before

/-! ## Counting -/

theorem surplus_append (xs ys : List Token) : surplus (xs ++ ys) = surplus xs + surplus ys := by
  simp only [surplus, literals_append, operators_append, List.length_append]
  omega

theorem Expr.surplus_postorder (t : Expr) : surplus t.postorder = 1 := by
  induction t with
  | literal text => rfl
  | node op left right ihl ihr =>
    have hop : surplus [.operator op] = -1 := rfl
    rw [postorder, surplus_append, surplus_append, ihl, ihr, hop]
    omega

/-- The tokens of a row of trees, one postorder after the other. -/
def forest (trees : List Expr) : List Token := trees.flatMap Expr.postorder

theorem forest_append (trees more : List Expr) :
    forest (trees ++ more) = forest trees ++ forest more :=
  List.flatMap_append

theorem forest_singleton (t : Expr) : forest [t] = t.postorder := List.flatMap_singleton ..

theorem surplus_forest (trees : List Expr) : surplus (forest trees) = trees.length := by
  induction trees with
  | nil => rfl
  | cons t trees ih =>
    rw [forest, List.flatMap_cons, ← forest, surplus_append, ih, t.surplus_postorder,
      List.length_cons]
    omega

/-! ## Rows of trees -/

/-- An operator joins the last two trees of a row. -/
theorem forest_concat_operator (trees : List Expr) (left right : Expr) (op : Operator) :
    forest (trees ++ [left, right]) ++ [.operator op] = forest (trees ++ [.node op left right]) := by
  simp [forest, Expr.postorder]

theorem exists_concat_pair {α : Type} {xs : List α} (h : 2 ≤ xs.length) :
    ∃ ys y z, xs = ys ++ [y, z] := by
  obtain ⟨ys', z, rfl⟩ := List.eq_nil_or_concat xs |>.resolve_left (by rintro rfl; simp at h)
  obtain ⟨ys, y, rfl⟩ := List.eq_nil_or_concat ys' |>.resolve_left (by rintro rfl; simp at h)
  exact ⟨ys, y, z, by simp⟩

/-- **Rows of trees.** A token list is the postorder of a row of trees, or it
has a first operator that lacks an operand, and what stands before that one is
the postorder of a row of less than two trees. -/
theorem exists_forest_or_short (ts : List Token) :
    (∃ trees, ts = forest trees ∧ Supplied ts) ∨
      ∃ trees op, IsFirstShort ts (forest trees) op ∧ trees.length < 2 := by
  induction ts using List.reverseRecOn with
  | nil => exact .inl ⟨[], rfl, fun before op h => by simp at h⟩
  | append_singleton ts t ih =>
    rcases ih with ⟨trees, rfl, hsupplied⟩ | ⟨trees, op, hshort, hlen⟩
    · cases t with
      | number text =>
        refine .inl ⟨trees ++ [.literal text], by simp [forest, Expr.postorder], ?_⟩
        intro before op h
        rcases List.prefix_concat_iff.mp h with h | h
        · exact absurd (List.append_inj' h rfl).2 (by simp)
        · exact hsupplied before op h
      | operator op =>
        by_cases hlen : trees.length < 2
        · refine .inr ⟨trees, op, ⟨List.prefix_rfl, ?_, hsupplied⟩, hlen⟩
          rw [surplus_forest]
          omega
        · obtain ⟨before, left, right, rfl⟩ := exists_concat_pair (Nat.le_of_not_lt hlen)
          refine .inl ⟨before ++ [.node op left right], forest_concat_operator .., ?_⟩
          intro ts op' h
          rcases List.prefix_concat_iff.mp h with h | h
          · obtain ⟨rfl, -⟩ := List.append_inj' h rfl
            rw [surplus_forest]
            omega
          · exact hsupplied ts op' h
    · exact .inr ⟨trees, op, ⟨hshort.isPrefix.trans (List.prefix_append ..), hshort.short,
        hshort.supplied⟩, hlen⟩

/-! ## Their values on the stack -/

theorem Stack.ofList_concat {α : Type} (xs : List α) (x : α) :
    Stack.ofList (xs ++ [x]) = (Stack.ofList xs).push x := by
  simp [ofList, push]

/-- Reading a row of trees leaves their values. -/
theorem foldlM_reduceStep_forest (trees : List Expr) :
    (forest trees).foldlM reduceStep .empty = .ok (.ofList (trees.map Expr.value)) := by
  induction trees using List.reverseRecOn with
  | nil => rfl
  | append_singleton trees t ih =>
    rw [forest_append, forest_singleton, List.foldlM_append, ih, ok_bind,
      foldlM_reduceStep_postorder, List.map_append, List.map_singleton, Stack.ofList_concat]

theorem reduce_forest (trees : List Expr) :
    reduce (forest trees) = soleValue (.ofList (trees.map Expr.value)) := by
  simp only [reduce, foldlM_reduceStep_forest, ok_bind]

/-- Of several values none is the only one. -/
theorem soleValue_ofList {xs : List Float} (h : 2 ≤ xs.length) :
    soleValue (.ofList xs) = .error (.leftover xs.length) := by
  obtain ⟨ys, y, z, rfl⟩ := exists_concat_pair h
  simp [soleValue, Stack.single, Stack.ofList]

/-- **The first operator that lacks an operand** ends the reduction, whatever
stands after it. -/
theorem reduce_of_isFirstShort {ts : List Token} {trees : List Expr} {op : Operator}
    (h : IsFirstShort ts (forest trees) op) (hlen : trees.length < 2) :
    reduce ts = .error (.missingOperands op ⟨2, trees.length⟩) := by
  obtain ⟨rest, rfl⟩ := h.isPrefix
  have hpop : (Stack.ofList (trees.map Expr.value)).popPair = .error ⟨2, trees.length⟩ := by
    rw [Stack.popPair_eq_error_iff]
    simpa using hlen
  have hstep : reduceStep (Stack.ofList (trees.map Expr.value)) (.operator op) =
      .error (.missingOperands op ⟨2, trees.length⟩) := by
    simp only [reduceStep, hpop]
  refine reduce_eq_error ?_
  rw [List.foldlM_append, foldlM_reduceStep_concat, foldlM_reduceStep_forest, ok_bind, hstep,
    error_bind]

/-! ## Any token list -/

/-- **Reduction of any token list.** It has a value exactly if it is the
postorder of a tree, which is then the only one, and the value is that of the
tree. If an operator has fewer than two operands before it, the first such
operator is reported with the number of its operands. If there is no such
operator, nothing is left of the empty list, and of any other list that is no
postorder all the operands that no operator takes. -/
theorem reduce_determined (ts : List Token) :
    (∀ x, reduce ts = .ok x ↔ ∃ t : Expr, t.postorder = ts ∧ t.value = x) ∧
    (∀ t t' : Expr, t.postorder = ts → t'.postorder = ts → t = t') ∧
    ((∃ before op, before ++ [.operator op] <+: ts ∧ surplus before < 2) →
      ∃ before op, IsFirstShort ts before op ∧ (surplus before = 0 ∨ surplus before = 1) ∧
        reduce ts = .error (.missingOperands op ⟨2, (surplus before).toNat⟩)) ∧
    (Supplied ts →
      (ts = [] → reduce ts = .error .empty) ∧
      (ts ≠ [] → (¬ ∃ t : Expr, t.postorder = ts) →
        2 ≤ surplus ts ∧ reduce ts = .error (.leftover (surplus ts).toNat))) := by
  have hunique : ∀ t t' : Expr, t.postorder = ts → t'.postorder = ts → t = t' :=
    fun t t' h h' => Expr.postorder_injective (h.trans h'.symm)
  have htree : ∀ x, (∃ t : Expr, t.postorder = ts ∧ t.value = x) → reduce ts = .ok x := by
    rintro x ⟨t, rfl, rfl⟩
    exact reduce_postorder t
  rcases exists_forest_or_short ts with ⟨trees, rfl, hsupplied⟩ | ⟨trees, op, hshort, hlen⟩
  · refine ⟨fun x => ⟨fun h => ?_, htree x⟩, hunique, ?_, fun _ => ⟨?_, fun hne hnone => ?_⟩⟩
    · rw [reduce_forest] at h
      match trees, h with
      | [t], h =>
        cases h
        exact ⟨t, (forest_singleton t).symm, rfl⟩
      | t :: t' :: trees, h =>
        rw [soleValue_ofList (by simp)] at h
        cases h
    · rintro ⟨before, op, hinitial, hlt⟩
      have := hsupplied before op hinitial
      omega
    · intro hnil
      rw [hnil]
      rfl
    · have hlen : 2 ≤ trees.length := by
        match trees, hne, hnone with
        | [t], _, hnone => exact absurd ⟨t, (forest_singleton t).symm⟩ hnone
        | _ :: _ :: _, _, _ => simp
      rw [surplus_forest, reduce_forest, soleValue_ofList (by simpa using hlen)]
      exact ⟨by omega, by simp⟩
  · have herror := reduce_of_isFirstShort hshort hlen
    refine ⟨fun x => ⟨fun h => ?_, htree x⟩, hunique, fun _ => ⟨_, op, hshort, ?_, ?_⟩,
      fun hsupplied => absurd hshort.short (Int.not_lt.mpr (hsupplied _ op hshort.isPrefix))⟩
    · rw [herror] at h
      cases h
    · rw [surplus_forest]
      omega
    · rw [herror, surplus_forest]
      rfl

end Keypad
