/-
What solving an entry comes to.

An entry that ends in a literal is a complete expression and has a value. One
that ends in an operator lacks the last literal of a complete expression: the
operands of everything after its root are there, the root's right one is not.

* `evaluate_dropLast`: a complete expression without its last literal fails
  at its root, whatever the table.
* `isLastLoosest_of_isRoot`: under the common operators the root is the last
  one of those that bind most loosely.
* `solve_pressAll`: what solving answers after any keys.
-/
import Keypad.Proofs.Grouping
import Keypad.Proofs.Keystrokes

namespace Keypad

/-! ## A complete expression without its last literal -/

theorem operators_dropLast_subset {ts : List Token} {op : Operator}
    (h : op ∈ operators ts.dropLast) : op ∈ operators ts :=
  mem_operators.mpr (List.dropLast_subset _ (mem_operators.mp h))

namespace Chain

variable {table : OperatorTable} {first text : String} {before after : List Link} {b : Binding}

theorem tokens_ne_nil (c : Chain) : c.tokens ≠ [] := by simp [tokens]

theorem dropLast_tokens_node (first text : String) (before after : List Link) (b : Binding) :
    (tokens ⟨first, before ++ (b, text) :: after⟩).dropLast =
      tokens ⟨first, before⟩ ++ .operator b.operator :: (tokens ⟨text, after⟩).dropLast := by
  rw [tokens_node, List.dropLast_append_cons, List.dropLast_cons_of_ne_nil (tokens_ne_nil _)]

theorem toPostfix_dropLast_node {q : List Token} (hroot : IsRoot before b after)
    (hdef : DefinedBy ⟨first, before ++ (b, text) :: after⟩ table)
    (hq : toPostfix table (tokens ⟨text, after⟩).dropLast = .ok q) :
    toPostfix table (tokens ⟨first, before ++ (b, text) :: after⟩).dropLast =
      .ok ((group ⟨first, before⟩).postorder ++ q ++ [.operator b.operator]) := by
  rw [dropLast_tokens_node]
  exact toPostfix_root hroot hdef (fun _ => operators_dropLast_subset)
    (toPostfix_postorder_group hdef.node.1) hq

/-- Without its last literal an expression is reordered to what needs one
operand more and leaves one value for it. -/
theorem exists_toPostfix_dropLast {c : Chain} (h : c.DefinedBy table) :
    ∃ order, toPostfix table c.tokens.dropLast = .ok order ∧
      ∀ (s : Stack Float) x, ∃ y, order.foldlM reduceStep (s.push x) = .ok (s.push y) := by
  induction c using induction_root with
  | literal first => exact ⟨[], rfl, fun s x => ⟨x, rfl⟩⟩
  | node first before b text after hroot _ _ iha =>
    obtain ⟨-, -, ha⟩ := h.node
    obtain ⟨q, hq, hrun⟩ := iha ha
    refine ⟨_, toPostfix_dropLast_node hroot h hq, fun s x => ?_⟩
    obtain ⟨y, hy⟩ := hrun (s.push x) (group ⟨first, before⟩).value
    refine ⟨b.operator.apply x y, ?_⟩
    rw [foldlM_reduceStep_concat, List.foldlM_append, foldlM_reduceStep_postorder, ok_bind, hy,
      ok_bind, reduceStep_operator]

/-- **The root is to blame.** Without its last literal an expression fails for
want of the right operand of the operator that would be applied last. -/
theorem evaluate_dropLast (hroot : IsRoot before b after)
    (hdef : DefinedBy ⟨first, before ++ (b, text) :: after⟩ table) :
    evaluate table (tokens ⟨first, before ++ (b, text) :: after⟩).dropLast =
      .error (.irreducible (.missingOperands b.operator ⟨2, 1⟩)) := by
  obtain ⟨-, -, ha⟩ := hdef.node
  obtain ⟨q, hq, hrun⟩ := exists_toPostfix_dropLast ha
  obtain ⟨y, hy⟩ := hrun .empty (group ⟨first, before⟩).value
  have herror : ((group ⟨first, before⟩).postorder ++ q ++ [Token.operator b.operator]).foldlM
      reduceStep .empty = .error (.missingOperands b.operator ⟨2, 1⟩) := by
    rw [foldlM_reduceStep_concat, List.foldlM_append, foldlM_reduceStep_postorder, ok_bind, hy,
      ok_bind, reduceStep_operator_single]
  simp only [evaluate, toPostfix_dropLast_node hroot hdef hq, reduce_eq_error herror]
  rfl

/-- A chain with one more link at its end. -/
def push (c : Chain) (b : Binding) (text : String) : Chain := ⟨c.first, c.links ++ [(b, text)]⟩

theorem tokens_push (c : Chain) (b : Binding) (text : String) :
    (c.push b text).tokens = c.tokens ++ [.operator b.operator, .number text] := by
  simp [push, tokens]

theorem dropLast_tokens_push (c : Chain) (b : Binding) (text : String) :
    (c.push b text).tokens.dropLast = c.tokens ++ [.operator b.operator] := by
  rw [tokens_push, List.append_cons, List.dropLast_concat]

end Chain

/-! ## The common operators -/

/-- How an operator binds in the common table. -/
def Operator.common (op : Operator) : Binding :=
  ⟨op, (OperatorTable.common.fixity? op).get (OperatorTable.isSome_fixity?_common op)⟩

namespace Operator

theorem get?_common (op : Operator) : OperatorTable.common.get? op = some op.common := by
  simp [OperatorTable.get?, common]

/-- Operators that bind equally tightly group to the same side. -/
theorem associativity_common {op op' : Operator}
    (h : op.common.fixity.precedence = op'.common.fixity.precedence) :
    op.common.fixity.associativity = op'.common.fixity.associativity := by
  revert h
  cases op <;> cases op' <;> decide

theorem eq_power_of_right {op : Operator} (h : op.common.fixity.associativity = .right) :
    op = .power := by
  revert h
  cases op <;> decide

theorem eq_power_of_le {op : Operator}
    (h : power.common.fixity.precedence ≤ op.common.fixity.precedence) : op = .power := by
  revert h
  cases op <;> decide

end Operator

/-- Among the operators of a token list `op` is the last of those that bind
most loosely. -/
def IsLastLoosest (ts : List Token) (op : Operator) : Prop :=
  ∃ before after, ts = before ++ .operator op :: after ∧
    (∀ o ∈ operators ts, op.common.fixity.precedence ≤ o.common.fixity.precedence) ∧
    ∀ o ∈ operators after, op.common.fixity.precedence < o.common.fixity.precedence

namespace Chain

theorem DefinedBy.eq_common {c : Chain} (h : c.DefinedBy .common) {l : Link} (hl : l ∈ c.links) :
    l.1 = l.1.operator.common := by
  have := h l hl
  rw [Operator.get?_common] at this
  exact (Option.some.inj this).symm

theorem DefinedBy.exists_common {c : Chain} (h : c.DefinedBy .common) {op : Operator}
    (hop : op ∈ operators c.tokens) : ∃ l ∈ c.links, l.1 = op.common := by
  rw [operators_tokens, List.mem_map] at hop
  obtain ⟨l, hl, rfl⟩ := hop
  exact ⟨l, hl, h.eq_common hl⟩

theorem DefinedBy.push {c : Chain} (h : c.DefinedBy .common) (op : Operator) (text : String) :
    (c.push op.common text).DefinedBy .common := by
  intro l hl
  rcases List.mem_append.mp hl with hl | hl
  · exact h l hl
  · cases List.mem_singleton.mp hl
    exact op.get?_common

/-- **The root under the common operators.** Sums and products group to the
left, so the root is the last of the loosest operators; if all are powers the
last is a power too. -/
theorem isLastLoosest_of_isRoot {c : Chain} {op : Operator} {first text : String}
    {before after : List Link} {b : Binding} (h : (c.push op.common "").DefinedBy .common)
    (hsplit : c.push op.common "" = ⟨first, before ++ (b, text) :: after⟩)
    (hroot : IsRoot before b after) : IsLastLoosest (c.tokens ++ [.operator op]) b.operator := by
  have hdrop : (tokens ⟨first, before ++ (b, text) :: after⟩).dropLast =
      c.tokens ++ [.operator op] := by
    rw [← hsplit]
    exact dropLast_tokens_push c op.common ""
  rw [hsplit] at h
  have hafter : DefinedBy ⟨text, after⟩ .common := h.node.2.2
  have hb : b = b.operator.common := @DefinedBy.eq_common _ h (b, text) (by simp)
  have hlow : ∀ o ∈ operators (c.tokens ++ [.operator op]),
      b.operator.common.fixity.precedence ≤ o.common.fixity.precedence := by
    intro o ho
    rw [← hdrop] at ho
    obtain ⟨l, hl, hlo⟩ := h.exists_common (operators_dropLast_subset ho)
    rw [← hb, ← hlo]
    exact hroot.le_of_mem l hl
  cases hassoc : b.fixity.associativity with
  | left =>
    refine ⟨tokens ⟨first, before⟩, (tokens ⟨text, after⟩).dropLast, ?_, hlow, ?_⟩
    · rw [← hdrop, dropLast_tokens_node]
    · intro o ho
      obtain ⟨l, hl, hlo⟩ := hafter.exists_common (operators_dropLast_subset ho)
      rw [← hb, ← hlo]
      refine hroot.lt_after hassoc (fun l hl => ?_) l hl
      rw [hafter.eq_common hl, hb]
      exact Operator.associativity_common
  | right =>
    have hpower : b.operator = .power := Operator.eq_power_of_right (by rw [← hb]; exact hassoc)
    have hop : op = .power := by
      refine Operator.eq_power_of_le ?_
      rw [← hpower]
      exact hlow op (by simp)
    refine ⟨c.tokens, [], ?_, hlow, by simp⟩
    rw [hop, hpower]

end Chain

/-! ## Entries -/

/-- An entry that ends in a literal is a complete expression, and one that
ends in an operator is one with that operator after it. -/
theorem Grown.exists_chain {First : String → Prop} {earlier : List Token} {last : Token}
    (h : Grown First earlier last) : ∃ c : Chain, c.DefinedBy .common ∧
      match last with
      | .number _ => earlier.reverse ++ [last] = c.tokens
      | .operator op => earlier.reverse ++ [last] = c.tokens ++ [.operator op] := by
  induction h with
  | @first text _ => exact ⟨⟨text, []⟩, by simp [Chain.DefinedBy], rfl⟩
  | operator _ _ ih =>
    obtain ⟨c, hc, htokens⟩ := ih
    refine ⟨c, hc, ?_⟩
    rw [List.reverse_cons]
    simp only at htokens ⊢
    rw [htokens]
  | @literal earlier op text _ _ ih =>
    obtain ⟨c, hc, htokens⟩ := ih
    refine ⟨c.push op.common text, hc.push op text, ?_⟩
    rw [Chain.tokens_push, List.reverse_cons]
    simp only at htokens
    rw [htokens, List.append_assoc]
    rfl

theorem evaluate_number {First : String → Prop} {earlier : List Token} {text : String}
    (h : Grown First earlier (.number text)) :
    ∃ x, evaluate .common (earlier.reverse ++ [.number text]) = .ok x := by
  obtain ⟨c, hc, htokens⟩ := h.exists_chain
  simp only at htokens
  rw [htokens]
  exact ⟨_, Chain.evaluate_value_group hc⟩

theorem evaluate_operator {First : String → Prop} {earlier : List Token} {op : Operator}
    (h : Grown First earlier (.operator op)) :
    ∃ root, IsLastLoosest (earlier.reverse ++ [.operator op]) root ∧
      evaluate .common (earlier.reverse ++ [.operator op]) =
        .error (.irreducible (.missingOperands root ⟨2, 1⟩)) := by
  obtain ⟨c, hc, htokens⟩ := h.exists_chain
  simp only at htokens
  have hdef := hc.push op ""
  obtain ⟨before, b, text, after, hsplit, hroot, -⟩ :=
    @Chain.exists_root c.first (c.push op.common "").links (by simp [Chain.push])
  have hpush : c.push op.common "" = ⟨c.first, before ++ (b, text) :: after⟩ := by
    rw [← hsplit]
    rfl
  have hdrop : (c.push op.common "").tokens.dropLast = c.tokens ++ [.operator op] :=
    Chain.dropLast_tokens_push c op.common ""
  rw [htokens]
  refine ⟨b.operator, Chain.isLastLoosest_of_isRoot hdef hpush hroot, ?_⟩
  rw [hpush] at hdef
  rw [← hdrop, hpush]
  exact Chain.evaluate_dropLast hroot hdef

/-- **What solving answers.** After any keys an entry that ends in a literal
has a value. One that ends in an operator has none: the last of its loosest
operators lacks its right operand, and the error marker takes the place of
the entry. Solving never fails in another way. -/
theorem solve_pressAll (settings : Settings) (keys : List Key) :
    let c := ((Calculator.new settings).pressAll keys).calculator
    ((∃ x, c.solve.outcome? = some (.ok x)) ↔ c.entry.last.isNumber = true) ∧
    (c.entry.last.isOperator = true → ∃ op, IsLastLoosest c.entry.tokens op ∧
      c.solve.outcome? = some (.error (.irreducible (.missingOperands op ⟨2, 1⟩))) ∧
      c.solve.calculator.entry.tokens = [.number settings.errorMarker]) ∧
    (∀ n, c.solve.outcome? ≠ some (.error (.irreducible (.leftover n)))) ∧
    c.solve.outcome? ≠ some (.error (.irreducible .empty)) ∧
    ∀ e, c.solve.outcome? ≠ some (.error (.unknownOperator e)) := by
  intro c
  obtain ⟨hsettings, hgrown⟩ := Calculator.grown_pressAll settings keys
  change c.settings = settings at hsettings
  change Grown _ c.entry.earlier c.entry.last at hgrown
  rw [c.outcome?_solve, Entry.tokens_eq]
  cases hlast : c.entry.last with
  | number text =>
    rw [hlast] at hgrown
    obtain ⟨x, hx⟩ := evaluate_number hgrown
    simp [hx, Token.isNumber, Token.numberText?, Token.isOperator, Token.operator?]
  | operator op =>
    rw [hlast] at hgrown
    obtain ⟨root, hroot, herror⟩ := evaluate_operator hgrown
    have hmarker : c.solve.calculator.entry.tokens = [.number settings.errorMarker] := by
      obtain ⟨log, hsolve⟩ := c.exists_solve_eq
      rw [hsolve, Entry.tokens_eq c.entry, hlast, herror, ← hsettings]
      rfl
    simp [herror, hmarker, hroot, Token.isNumber, Token.numberText?]

end Keypad
