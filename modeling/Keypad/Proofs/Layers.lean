/-
Under the common operators an expression has the value that the layers of
arithmetic give it.

* `combine_cut_append`: the last operator of a layer combines the value of
  what stands before it with that of the run after it.
* `sum_root`: so the layers cut an expression at the operator that grouping
  applies last.
* `evaluate_eq_sum`: evaluation answers the value of the layers.
-/
import Keypad.Expr.Layered
import Keypad.Proofs.Solving

namespace Keypad

namespace Layered

/-- An operator and the literal after it. -/
abbrev Step := Operator × String

/-! ## Cutting -/

section

variable {layer : Operator → Bool} {value : Run → Float} {first text : String}
  {links before after : List Step} {op : Operator}

theorem cut_of_none (h : ∀ l ∈ links, layer l.1 = false) :
    cut layer first links = ⟨⟨first, links⟩, []⟩ := by
  induction links generalizing first with
  | nil => rfl
  | cons l links ih =>
    obtain ⟨op, text⟩ := l
    have hop : layer op = false := h (op, text) (by simp)
    have hrest := @ih text fun l hl => h l (List.mem_cons_of_mem _ hl)
    simp [cut, hop, hrest, Run.cons]

/-- The last operator of a layer begins the last of the runs. -/
theorem cut_append (hop : layer op = true) (hafter : ∀ l ∈ after, layer l.1 = false) :
    cut layer first (before ++ (op, text) :: after) =
      ⟨(cut layer first before).first, (cut layer first before).links ++ [(op, ⟨text, after⟩)]⟩ := by
  induction before generalizing first with
  | nil => simp [cut, hop, cut_of_none hafter]
  | cons l before ih =>
    obtain ⟨op', text'⟩ := l
    cases hop' : layer op' with
    | true => simp [cut, hop', @ih text']
    | false => simp [cut, hop', @ih text']

theorem combine_cut_of_none (h : ∀ l ∈ links, layer l.1 = false) :
    (cut layer first links).combine value = value ⟨first, links⟩ := by
  rw [cut_of_none h]
  rfl

/-- **Combining ends at the last operator of the layer.** -/
theorem combine_cut_append (hop : layer op = true) (hafter : ∀ l ∈ after, layer l.1 = false) :
    (cut layer first (before ++ (op, text) :: after)).combine value =
      op.apply ((cut layer first before).combine value) (value ⟨text, after⟩) := by
  rw [cut_append hop hafter]
  simp only [Cut.combine, List.foldl_append]
  rfl

end

/-! ## The three layers -/

/-- Whether an operator stands between terms. -/
def joinsTerms (op : Operator) : Bool := op = .plus || op = .minus

/-- Whether an operator stands between factors. -/
def joinsFactors (op : Operator) : Bool := op = .times || op = .divide

variable {first text : String} {links before after : List Step} {op : Operator}

theorem sum_eq_term (h : ∀ l ∈ links, joinsTerms l.1 = false) :
    sum ⟨first, links⟩ = term ⟨first, links⟩ :=
  combine_cut_of_none h

theorem term_eq_factor (h : ∀ l ∈ links, joinsFactors l.1 = false) :
    term ⟨first, links⟩ = factor ⟨first, links⟩ :=
  combine_cut_of_none h

theorem sum_append (hop : joinsTerms op = true) (hafter : ∀ l ∈ after, joinsTerms l.1 = false) :
    sum ⟨first, before ++ (op, text) :: after⟩ =
      op.apply (sum ⟨first, before⟩) (term ⟨text, after⟩) :=
  combine_cut_append hop hafter

theorem term_append (hop : joinsFactors op = true)
    (hafter : ∀ l ∈ after, joinsFactors l.1 = false) :
    term ⟨first, before ++ (op, text) :: after⟩ =
      op.apply (term ⟨first, before⟩) (factor ⟨text, after⟩) :=
  combine_cut_append hop hafter

theorem factor_cons (first text : String) (op : Operator) (links : List Step) :
    factor ⟨first, (op, text) :: links⟩ =
      op.apply (factor ⟨first, []⟩) (factor ⟨text, links⟩) := rfl

/-- Where no operator is of a looser layer, a sum is a factor. -/
theorem sum_eq_factor (h : ∀ l ∈ links, l.1 = .power) :
    sum ⟨first, links⟩ = factor ⟨first, links⟩ := by
  rw [sum_eq_term fun l hl => by rw [h l hl]; rfl, term_eq_factor fun l hl => by rw [h l hl]; rfl]

/-! ## The root -/

theorem joinsTerms_of_lt {op' : Operator}
    (h : op.common.fixity.precedence < op'.common.fixity.precedence) : joinsTerms op' = false := by
  revert h
  cases op <;> cases op' <;> decide

theorem joinsTerms_of_le {op' : Operator} (hop : joinsTerms op = false)
    (h : op.common.fixity.precedence ≤ op'.common.fixity.precedence) : joinsTerms op' = false := by
  revert hop h
  cases op <;> cases op' <;> decide

theorem eq_power_of_lt {op' : Operator} (hop : joinsFactors op = true)
    (h : op.common.fixity.precedence < op'.common.fixity.precedence) : op' = .power := by
  revert hop h
  cases op <;> cases op' <;> decide

theorem sum_cut_term (hop : joinsTerms op = true) (hafter : ∀ l ∈ after, joinsTerms l.1 = false) :
    sum ⟨first, before ++ (op, text) :: after⟩ =
      op.apply (sum ⟨first, before⟩) (sum ⟨text, after⟩) := by
  rw [sum_append hop hafter, sum_eq_term hafter]

theorem sum_cut_factor (hterms : ∀ l ∈ before ++ (op, text) :: after, joinsTerms l.1 = false)
    (hop : joinsFactors op = true) (hafter : ∀ l ∈ after, l.1 = .power) :
    sum ⟨first, before ++ (op, text) :: after⟩ =
      op.apply (sum ⟨first, before⟩) (sum ⟨text, after⟩) := by
  have hbefore : ∀ l ∈ before, joinsTerms l.1 = false := by
    intro l hl
    exact hterms l (List.mem_append_left _ hl)
  have hfactors : ∀ l ∈ after, joinsFactors l.1 = false := by
    intro l hl
    rw [hafter l hl]
    rfl
  rw [sum_eq_term hterms, term_append hop hfactors, sum_eq_term hbefore, sum_eq_factor hafter]

theorem sum_cut_power (hafter : ∀ l ∈ after, l.1 = .power) :
    sum ⟨first, (.power, text) :: after⟩ =
      Operator.power.apply (sum ⟨first, []⟩) (sum ⟨text, after⟩) := by
  have hall : ∀ l ∈ (Operator.power, text) :: after, l.1 = .power := by
    rw [List.forall_mem_cons]
    exact ⟨rfl, hafter⟩
  have hfirst : sum ⟨first, []⟩ = factor ⟨first, []⟩ := sum_eq_factor (by simp)
  rw [sum_eq_factor hall, factor_cons, hfirst, sum_eq_factor hafter]

/-- **The layers cut at the root**: at the last of the loosest operators, or
if there are only powers at the first of them. -/
theorem sum_root (hbefore : ∀ l ∈ before, op.common.fixity.precedence ≤ l.1.common.fixity.precedence)
    (hafter : ∀ l ∈ after, op.common.fixity.precedence ≤ l.1.common.fixity.precedence)
    (hleft : op ≠ .power →
      ∀ l ∈ after, op.common.fixity.precedence < l.1.common.fixity.precedence)
    (hright : op = .power → before = []) :
    sum ⟨first, before ++ (op, text) :: after⟩ =
      op.apply (sum ⟨first, before⟩) (sum ⟨text, after⟩) := by
  cases hterms : joinsTerms op with
  | true =>
    have hlt := hleft fun h => by rw [h] at hterms; cases hterms
    exact sum_cut_term hterms fun l hl => joinsTerms_of_lt (hlt l hl)
  | false =>
    cases hfactors : joinsFactors op with
    | true =>
      have hlt := hleft fun h => by rw [h] at hfactors; cases hfactors
      refine sum_cut_factor ?_ hfactors fun l hl => eq_power_of_lt hfactors (hlt l hl)
      rw [List.forall_mem_append, List.forall_mem_cons]
      exact ⟨fun l hl => joinsTerms_of_le hterms (hbefore l hl), hterms,
        fun l hl => joinsTerms_of_le hterms (hafter l hl)⟩
    | false =>
      have hop : op = .power := by
        revert hterms hfactors
        cases op <;> decide
      subst hop
      obtain rfl := hright rfl
      exact sum_cut_power fun l hl => Operator.eq_power_of_le (hafter l hl)

end Layered

/-! ## Expressions -/

namespace Chain

open Layered (Run sum)

/-- A chain without how its operators bind. -/
def run (c : Chain) : Run := ⟨c.first, c.links.map fun (b, text) => (b.operator, text)⟩

theorem sum_run_node {first text : String} {before after : List Link} {b : Binding}
    (hroot : IsRoot before b after)
    (hdef : DefinedBy ⟨first, before ++ (b, text) :: after⟩ .common) :
    sum (run ⟨first, before ++ (b, text) :: after⟩) =
      b.operator.apply (sum (run ⟨first, before⟩)) (sum (run ⟨text, after⟩)) := by
  have hb : b = b.operator.common := @DefinedBy.eq_common _ hdef (b, text) (by simp)
  have hlinks : ∀ l ∈ before ++ after, l.1 = l.1.operator.common := by
    intro l hl
    refine DefinedBy.eq_common hdef ?_
    simp only [List.mem_append, List.mem_cons] at hl ⊢
    tauto
  have hlow : ∀ l ∈ before ++ after,
      b.operator.common.fixity.precedence ≤ l.1.operator.common.fixity.precedence := by
    intro l hl
    rw [← hb, ← hlinks l hl]
    exact hroot.lowest l hl
  simp only [run, List.map_append, List.map_cons]
  apply Layered.sum_root
  · exact List.forall_mem_map.mpr fun l hl => hlow l (List.mem_append_left _ hl)
  · exact List.forall_mem_map.mpr fun l hl => hlow l (List.mem_append_right _ hl)
  · intro hpower
    have hleft : b.fixity.associativity = .left := by
      cases ha : b.fixity.associativity with
      | left => rfl
      | right => exact absurd (Operator.eq_power_of_right (by rw [← hb]; exact ha)) hpower
    refine List.forall_mem_map.mpr fun l hl => ?_
    rw [← hb, ← hlinks l (List.mem_append_right _ hl)]
    refine hroot.lt_after hleft (fun l hl => ?_) l hl
    rw [hlinks l (List.mem_append_right _ hl), hb]
    exact Operator.associativity_common
  · intro hpower
    have hright : b.fixity.associativity = .right := by
      rw [hb, hpower]
      rfl
    have hnone : before = [] := by
      refine List.eq_nil_iff_forall_not_mem.mpr fun l hl => ?_
      have hlt := (hroot.first hright).1 l hl
      rw [hb, hpower, hlinks l (List.mem_append_left _ hl)] at hlt
      revert hlt
      cases l.1.operator <;> decide
    rw [hnone]
    rfl

/-- The tree of an expression has the value of its layers. -/
theorem value_group_common {c : Chain} (h : c.DefinedBy .common) : c.group.value = sum c.run := by
  induction c using induction_root with
  | literal first => rfl
  | node first before b text after hroot hi ihb iha =>
    obtain ⟨hb, -, ha⟩ := h.node
    rw [group_node hi, Expr.value, ihb hb, iha ha, sum_run_node hroot h]

end Chain

namespace Layered

/-- A run with how its operators bind. -/
def Run.chain (r : Run) : Chain := ⟨r.first, r.links.map fun (op, text) => (op.common, text)⟩

theorem Run.definedBy_chain (r : Run) : r.chain.DefinedBy .common :=
  List.forall_mem_map.mpr fun l _ => l.1.get?_common

theorem Run.run_chain (r : Run) : r.chain.run = r := by
  simp [chain, Chain.run, Operator.common, Function.comp_def]

theorem Run.tokens_chain (r : Run) : r.chain.tokens = r.tokens := by
  simp [chain, Chain.tokens, tokens, Operator.common, List.flatMap_map]

/-- **Evaluation is layered arithmetic.** Whatever literals with operators
between them are evaluated under the common operators, the value is that of
the sum of their terms, each of them the product of its factors, and each of
these the power of its literals: sums and products from the left, powers from
the right. -/
theorem evaluate_eq_sum (r : Run) : evaluate .common r.tokens = .ok (sum r) := by
  have hdef := r.definedBy_chain
  rw [← r.tokens_chain, Chain.evaluate_value_group hdef, Chain.value_group_common hdef, r.run_chain]

end Layered

end Keypad
