/-
What reordering keeps of a token list, well-formed or not.

No token is lost, doubled or made up. Literals stay in order, and operators
move to the right only: an operator is emitted after it has been read, so no
literal read before it comes after it.

* `Conserves.insert`: a token read goes before operators only, whichever kind
  of token it is.
* `conserves_step`, `conserves_foldlM`: one token and any tokens are conserved.
* `toPostfix_eq_error_iff`: the first undefined operator is the one reported.
* `toPostfix_conserves`: the postfix order of any token list.
-/
import Mathlib.Data.List.Perm.Subperm
import Keypad.Evaluation
import Keypad.Proofs.Reordering

namespace Keypad

/-- The operators that stand before a literal, given the number of literals
before that one. All operators, if there is no such literal. -/
def operatorsBefore : Nat → List Token → List Operator
  | _, [] => []
  | m, .operator op :: ts => op :: operatorsBefore m ts
  | 0, .number _ :: _ => []
  | m + 1, .number _ :: ts => operatorsBefore m ts

/-! ## Counting -/

theorem length_eq_literals_add_operators (ts : List Token) :
    ts.length = (literals ts).length + (operators ts).length := by
  induction ts with
  | nil => rfl
  | cons t ts ih =>
    cases t with
    | number text => simp only [literals_number, operators_number, List.length_cons, ih]; omega
    | operator op => simp only [literals_operator, operators_operator, List.length_cons, ih]; omega

theorem operatorsBefore_of_length_le {m : Nat} {ts : List Token} (h : (literals ts).length ≤ m) :
    operatorsBefore m ts = operators ts := by
  induction ts generalizing m with
  | nil => rfl
  | cons t ts ih =>
    cases t with
    | operator op => rw [operatorsBefore, ih h, operators_operator]
    | number text =>
      obtain ⟨m, rfl⟩ : ∃ k, m = k + 1 := ⟨m - 1, by simp at h; omega⟩
      rw [operatorsBefore, ih (by simpa using h), operators_number]

/-- Nothing after a literal counts as before it. -/
theorem operatorsBefore_append_of_lt {m : Nat} {xs : List Token} (h : m < (literals xs).length)
    (ys : List Token) : operatorsBefore m (xs ++ ys) = operatorsBefore m xs := by
  induction xs generalizing m with
  | nil => simp at h
  | cons t xs ih =>
    cases t with
    | operator op => rw [List.cons_append, operatorsBefore, operatorsBefore, ih h]
    | number text =>
      cases m with
      | zero => rfl
      | succ m => rw [List.cons_append, operatorsBefore, operatorsBefore, ih (by simpa using h)]

theorem operatorsBefore_number (xs ys : List Token) (text : String) :
    operatorsBefore (literals xs).length (xs ++ .number text :: ys) = operators xs := by
  induction xs with
  | nil => rfl
  | cons t xs ih =>
    cases t with
    | operator op => simp [operatorsBefore, ih]
    | number text' => simp [operatorsBefore, ih]

/-! ## Tokens read and tokens ordered -/

/-- The tokens `order` are the tokens `read`, the literals in the same order
and no operator further to the left among them. -/
structure Conserves (read order : List Token) : Prop where
  literals_eq : literals order = literals read
  operators_perm : (operators order).Perm (operators read)
  before : ∀ m, (operatorsBefore m order).Subperm (operatorsBefore m read)

namespace Conserves

variable {read order xs ys : List Token} {t : Token}

theorem length_eq (h : Conserves read order) : order.length = read.length := by
  rw [length_eq_literals_add_operators, length_eq_literals_add_operators, h.literals_eq,
    h.operators_perm.length_eq]

/-- A token read goes before nothing but operators. -/
theorem insert (h : Conserves read (xs ++ ys)) (hys : literals ys = []) (t : Token) :
    Conserves (read ++ [t]) (xs ++ t :: ys) := by
  have hxs : literals xs = literals read := by simpa [hys] using h.literals_eq
  have hsplit : xs ++ t :: ys = xs ++ [t] ++ ys := List.append_cons xs t ys
  have hliterals : literals (xs ++ t :: ys) = literals (read ++ [t]) := by
    rw [hsplit, literals_append, literals_append, literals_append, hys, List.append_nil, hxs]
  have hperm : (operators (xs ++ t :: ys)).Perm (operators (read ++ [t])) := by
    rw [hsplit, operators_append, operators_append, operators_append, List.append_assoc]
    refine (List.Perm.append_left _ List.perm_append_comm).trans ?_
    rw [← List.append_assoc, ← operators_append]
    exact h.operators_perm.append_right _
  refine ⟨hliterals, hperm, fun m => ?_⟩
  by_cases hm : m < (literals xs).length
  · rw [operatorsBefore_append_of_lt hm, operatorsBefore_append_of_lt (hxs ▸ hm),
      ← operatorsBefore_append_of_lt hm ys]
    exact h.before m
  -- A literal from here on is the token read itself, or there is none.
  by_cases hlast : ∃ text, t = .number text ∧ m = (literals xs).length
  · obtain ⟨text, rfl, rfl⟩ := hlast
    have hsub : (operators xs).Sublist (operators (xs ++ ys)) := by simp
    rw [operatorsBefore_number, hxs, operatorsBefore_number]
    exact hsub.subperm.trans h.operators_perm.subperm
  · have hle : (literals (read ++ [t])).length ≤ m := by
      cases t with
      | operator op => simpa [← hxs] using hm
      | number text =>
        have hne : m ≠ (literals xs).length := fun heq => hlast ⟨text, rfl, heq⟩
        simp only [literals_append, ← hxs, literals_number, literals_nil, List.length_append,
          List.length_singleton]
        omega
    rw [operatorsBefore_of_length_le hle, operatorsBefore_of_length_le (hliterals ▸ hle)]
    exact hperm.subperm

end Conserves

/-! ## Runs -/

namespace Reordering

variable {table : OperatorTable} {read ts : List Token} {r r' : Reordering}

theorem literals_pending (bs : List Binding) :
    literals (bs.map fun b => Token.operator b.operator) = [] := by
  induction bs with
  | nil => rfl
  | cons b bs ih => simpa using ih

/-- **One token** is conserved. -/
theorem conserves_step {t : Token} (h : Conserves read r.finish) (hstep : r.step table t = .ok r') :
    Conserves (read ++ [t]) r'.finish := by
  cases t with
  | number text =>
    cases hstep
    simpa [finish] using h.insert (literals_pending r.pending) (.number text)
  | operator op =>
    cases hf : table.fixity? op with
    | none => simp [step, hf] at hstep
    | some f =>
      rw [step_operator hf] at hstep
      cases hstep
      -- What the operator releases keeps its place in the order so far.
      rw [← finish_release r f] at h
      exact h.insert (literals_pending (r.release f).pending) (.operator op)

/-- **Any tokens** are conserved. -/
theorem conserves_foldlM (h : Conserves read r.finish) (hrun : ts.foldlM (step table) r = .ok r') :
    Conserves (read ++ ts) r'.finish := by
  induction ts generalizing read r with
  | nil =>
    cases hrun
    simpa using h
  | cons t ts ih =>
    rw [List.foldlM_cons] at hrun
    cases hstep : r.step table t with
    | error e => rw [hstep] at hrun; cases hrun
    | ok next =>
      rw [hstep] at hrun
      simpa using ih (conserves_step h hstep) hrun

end Reordering

/-! ## Postfix orders -/

theorem OperatorTable.isNone_get? (table : OperatorTable) (op : Operator) :
    (table.get? op).isNone = (table.fixity? op).isNone := by
  simp [get?]

variable {table : OperatorTable} {ts : List Token} {e : UnknownOperator}

/-- **The first undefined operator** is the one reported. -/
theorem toPostfix_eq_error_iff : toPostfix table ts = .error e ↔
    (operators ts).find? (fun op => (table.get? op).isNone) = some e.operator := by
  simp only [OperatorTable.isNone_get?]
  rw [← Reordering.foldlM_step_eq_error_iff (r := .start), toPostfix]
  cases ts.foldlM (Reordering.step table) .start <;> simp [Except.map]

theorem get?_eq_none_of_toPostfix (h : toPostfix table ts = .error e) :
    .operator e.operator ∈ ts ∧ table.get? e.operator = none := by
  have hfirst := toPostfix_eq_error_iff.mp h
  have hnone := List.find?_some hfirst
  exact ⟨mem_operators.mp (List.mem_of_find?_eq_some hfirst), Option.isNone_iff_eq_none.mp hnone⟩

theorem exists_toPostfix_eq_error {op : Operator} (hmem : .operator op ∈ ts)
    (hnone : table.get? op = none) : ∃ e, toPostfix table ts = .error e := by
  have hsome : ((operators ts).find? fun op => (table.get? op).isNone).isSome :=
    List.find?_isSome.mpr ⟨op, mem_operators.mpr hmem, by simp [hnone]⟩
  obtain ⟨missing, hmissing⟩ := Option.isSome_iff_exists.mp hsome
  exact ⟨⟨missing⟩, toPostfix_eq_error_iff.mpr hmissing⟩

/-- Evaluation reports an undefined operator before anything else. -/
theorem evaluate_eq_unknownOperator_iff :
    evaluate table ts = .error (.unknownOperator e) ↔ toPostfix table ts = .error e := by
  unfold evaluate
  cases toPostfix table ts with
  | error e' => simp
  | ok order =>
    cases hreduce : reduce order <;> simp [hreduce, Except.mapError]

theorem conserves_toPostfix {order : List Token} (h : toPostfix table ts = .ok order) :
    Conserves ts order := by
  obtain ⟨r, hrun, rfl⟩ := toPostfix_eq_ok_iff.mp h
  have hnone : Conserves [] Reordering.start.finish := ⟨rfl, .refl _, fun m => .refl _⟩
  exact Reordering.conserves_foldlM hnone hrun

/-- **Reordering conserves the tokens.** A token list has no postfix order
exactly if it has an operator that the table does not define. Then the first
such operator is reported, and evaluation reports it too, whatever else is wrong
with the list. Otherwise the postfix order has the same number of tokens, the
same literals in the same order and each operator as often, and before each
literal it has no operator, counted with repetitions, that the list does not
have before it. -/
theorem toPostfix_conserves (table : OperatorTable) (ts : List Token) :
    ((∃ e, toPostfix table ts = .error e) ↔ ∃ op, .operator op ∈ ts ∧ table.get? op = none) ∧
    (∀ e, toPostfix table ts = .error e ↔
      (operators ts).find? (fun op => (table.get? op).isNone) = some e.operator) ∧
    (∀ e, evaluate table ts = .error (.unknownOperator e) ↔ toPostfix table ts = .error e) ∧
    ((∀ op, .operator op ∈ ts → table.get? op ≠ none) →
      ∃ order, toPostfix table ts = .ok order ∧
        order.length = ts.length ∧
        literals order = literals ts ∧
        (∀ op, (operators order).count op = (operators ts).count op) ∧
        ∀ m, (operatorsBefore m order).length ≤ (operatorsBefore m ts).length ∧
          ∀ op, (operatorsBefore m order).count op ≤ (operatorsBefore m ts).count op) := by
  refine ⟨⟨?_, ?_⟩, fun e => toPostfix_eq_error_iff, fun e => evaluate_eq_unknownOperator_iff,
    fun hdefined => ?_⟩
  · intro ⟨e, he⟩
    exact ⟨e.operator, get?_eq_none_of_toPostfix he⟩
  · intro ⟨op, hmem, hnone⟩
    exact exists_toPostfix_eq_error hmem hnone
  · cases horder : toPostfix table ts with
    | error e =>
      obtain ⟨hmem, hnone⟩ := get?_eq_none_of_toPostfix horder
      exact absurd hnone (hdefined e.operator hmem)
    | ok order =>
      have h := conserves_toPostfix horder
      exact ⟨order, rfl, h.length_eq, h.literals_eq, fun op => h.operators_perm.count_eq op,
        fun m => ⟨(h.before m).length_le, fun op => (h.before m).count_le op⟩⟩

end Keypad
