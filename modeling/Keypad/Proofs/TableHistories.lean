/-
Operator tables by their histories, and what of a table matters.

A table is made from the empty one by defining operators and by putting another
table in its place. It has the last definition of each operator since it was
last replaced. Reordering asks a table only which operators it defines, to which
side each one groups, and which of two precedences is the higher one: two
tables that agree on this are read in lockstep.

* `get?_ofEdits`: what a table with a given history defines.
* `inStep_step`, `inStep_foldlM`: one token and any tokens under two tables
  that agree.
* `toPostfix_congr`: so both tables give the same postfix order.
* `ofEdits_determined`: tables by their histories.
-/
import Mathlib.Data.List.Forall2
import Mathlib.Data.List.Induction
import Keypad.Evaluation
import Keypad.Proofs.Grouping

namespace Keypad

/-! ## Histories -/

/-- A change of an operator table. -/
inductive TableEdit where
  | insert (b : Binding)
  /-- The table of a list of definitions takes its place. -/
  | collect (bs : List Binding)
  /-- The common table takes its place. -/
  | common
  deriving Repr, DecidableEq

namespace OperatorTable

def edit (t : OperatorTable) : TableEdit → OperatorTable
  | .insert b => t.insert b
  | .collect bs => ofList bs
  | .common => common

/-- The table that changes make of the empty one. -/
def ofEdits (edits : List TableEdit) : OperatorTable := edits.foldl edit empty

/-- The definitions since the last replacement, those of the replacement
included, the latest first. The changes are given with the latest first. -/
def definitions : List TableEdit → List Binding
  | [] => []
  | .insert b :: earlier => b :: definitions earlier
  | .collect bs :: _ => bs.reverse
  | .common :: _ => common.toList

theorem find?_cons_operator (b : Binding) (bs : List Binding) (op : Operator) :
    (b :: bs).find? (fun b => b.operator = op) =
      if op = b.operator then some b else bs.find? fun b => b.operator = op := by
  by_cases h : op = b.operator
  · simp [h]
  · simp [h, Ne.symm h]

theorem get?_insert (t : OperatorTable) (b : Binding) (op : Operator) :
    (t.insert b).get? op = if op = b.operator then some b else t.get? op := by
  split
  · next h => rw [h, get?_insert_self]
  · next h => exact get?_insert_of_ne t b h

theorem get?_ofList (bs : List Binding) (op : Operator) :
    (ofList bs).get? op = bs.reverse.find? fun b => b.operator = op := by
  induction bs using List.reverseRecOn with
  | nil => rfl
  | append_singleton bs b ih =>
    rw [ofList_append_singleton, List.reverse_concat, get?_insert, find?_cons_operator, ih]

/-- **A table by its history.** It has the last definition of an operator since
it was last replaced. -/
theorem get?_ofEdits (edits : List TableEdit) (op : Operator) :
    (ofEdits edits).get? op = (definitions edits.reverse).find? fun b => b.operator = op := by
  induction edits using List.reverseRecOn with
  | nil => rfl
  | append_singleton edits e ih =>
    rw [ofEdits, List.foldl_concat, ← ofEdits, List.reverse_concat]
    cases e with
    | insert b => rw [edit, get?_insert, ih, definitions, find?_cons_operator]
    | collect bs => exact get?_ofList bs op
    | common => cases op <;> rfl

/-! ## Agreement -/

/-- Two tables have the definitions `b` and `b'` for the same operator. -/
def Counterparts (t t' : OperatorTable) (b b' : Binding) : Prop :=
  ∃ op, t.get? op = some b ∧ t'.get? op = some b'

/-- Two tables define the same operators, let each one group to the same side
and order them by precedence in the same way. -/
structure Similar (t t' : OperatorTable) : Prop where
  defined : ∀ op, t.get? op = none ↔ t'.get? op = none
  associativity : ∀ b b', Counterparts t t' b b' →
    b.fixity.associativity = b'.fixity.associativity
  precedence : ∀ b b' c c', Counterparts t t' b b' → Counterparts t t' c c' →
    (b.fixity.precedence < c.fixity.precedence ↔ b'.fixity.precedence < c'.fixity.precedence)

variable {t t' : OperatorTable} {b b' c c' : Binding}

theorem Counterparts.operator_eq (h : Counterparts t t' b b') : b.operator = b'.operator := by
  obtain ⟨op, hb, hb'⟩ := h
  rw [operator_of_get? hb, operator_of_get? hb']

namespace Similar

theorem precedence_eq_iff (h : Similar t t') (hb : Counterparts t t' b b')
    (hc : Counterparts t t' c c') : b.fixity.precedence = c.fixity.precedence ↔
      b'.fixity.precedence = c'.fixity.precedence := by
  have hlt := h.precedence b b' c c' hb hc
  have hgt := h.precedence c c' b b' hc hb
  simp only [UInt64.lt_iff_toNat_lt] at hlt hgt
  simp only [← UInt64.toNat_inj]
  omega

theorem yieldsTo_eq (h : Similar t t') (hb : Counterparts t t' b b')
    (hc : Counterparts t t' c c') : b.fixity.yieldsTo c.fixity = b'.fixity.yieldsTo c'.fixity := by
  rw [Bool.eq_iff_iff, Fixity.yieldsTo_iff, Fixity.yieldsTo_iff, h.precedence b b' c c' hb hc,
    h.associativity b b' hb, h.precedence_eq_iff hb hc]

/-- An operator is undefined in both tables, or defined in both. -/
theorem cases_fixity? (h : Similar t t') (op : Operator) :
    t.fixity? op = none ∧ t'.fixity? op = none ∨
      ∃ f f', t.fixity? op = some f ∧ t'.fixity? op = some f' ∧
        Counterparts t t' ⟨op, f⟩ ⟨op, f'⟩ := by
  have hdefined := h.defined op
  cases hf : t.fixity? op <;> cases hf' : t'.fixity? op
  · exact .inl ⟨rfl, rfl⟩
  · simp [get?, hf, hf'] at hdefined
  · simp [get?, hf, hf'] at hdefined
  · exact .inr ⟨_, _, rfl, rfl, op, by simp [get?, hf], by simp [get?, hf']⟩

end Similar

end OperatorTable

/-! ## Lockstep -/

open OperatorTable

theorem forall₂_takeWhile_dropWhile {α β : Type} {R : α → β → Prop} {p : α → Bool} {q : β → Bool}
    {xs : List α} {ys : List β} (h : List.Forall₂ R xs ys) (hpq : ∀ x y, R x y → p x = q y) :
    List.Forall₂ R (xs.takeWhile p) (ys.takeWhile q) ∧
      List.Forall₂ R (xs.dropWhile p) (ys.dropWhile q) := by
  induction h with
  | nil => exact ⟨.nil, .nil⟩
  | @cons x y xs ys hxy hrest ih =>
    have hsame := hpq x y hxy
    by_cases hp : p x = true
    · have hq : q y = true := hsame ▸ hp
      simpa [hp, hq, hxy] using ih
    · have hq : ¬ q y = true := hsame ▸ hp
      simp [hp, hq, hxy, hrest]

namespace Reordering

variable {t t' : OperatorTable} {r r' : Reordering} {ts : List Token}

/-- Two reorderings have emitted the same tokens, and the same operators are
pending as their tables define them. -/
structure InStep (t t' : OperatorTable) (r r' : Reordering) : Prop where
  emitted_eq : r.emitted = r'.emitted
  pending : List.Forall₂ (Counterparts t t') r.pending r'.pending

theorem map_operator_eq {bs bs' : List Binding} (h : List.Forall₂ (Counterparts t t') bs bs') :
    bs.map (fun b => Token.operator b.operator) = bs'.map fun b => .operator b.operator := by
  induction h with
  | nil => rfl
  | cons hb _ ih => rw [List.map_cons, List.map_cons, hb.operator_eq, ih]

theorem InStep.finish_eq (h : InStep t t' r r') : r.finish = r'.finish := by
  rw [finish, finish, h.emitted_eq, map_operator_eq h.pending]

/-- What two definitions of an operator release is the same. -/
theorem InStep.release (h : InStep t t' r r') (hsimilar : Similar t t') {b b' : Binding}
    (hb : Counterparts t t' b b') : InStep t t' (r.release b.fixity) (r'.release b'.fixity) := by
  obtain ⟨htake, hdrop⟩ := forall₂_takeWhile_dropWhile h.pending
    (p := fun c => b.fixity.yieldsTo c.fixity) (q := fun c => b'.fixity.yieldsTo c.fixity)
    fun c c' hc => hsimilar.yieldsTo_eq hb hc
  refine ⟨?_, ?_⟩
  · simp only [Reordering.release, map_operator_eq htake, h.emitted_eq]
  · rw [pending_release, pending_release]
    exact hdrop

/-- **One token** keeps two reorderings in step, or ends both for the same
reason. -/
theorem inStep_step (h : InStep t t' r r') (hsimilar : Similar t t') (tok : Token) :
    (∃ e, r.step t tok = .error e ∧ r'.step t' tok = .error e) ∨
      ∃ s s', r.step t tok = .ok s ∧ r'.step t' tok = .ok s' ∧ InStep t t' s s' := by
  cases tok with
  | number text => exact .inr ⟨_, _, rfl, rfl, by rw [h.emitted_eq], h.pending⟩
  | operator op =>
    rcases hsimilar.cases_fixity? op with ⟨hf, hf'⟩ | ⟨f, f', hf, hf', hb⟩
    · exact .inl ⟨⟨op⟩, by simp [step, hf], by simp [step, hf']⟩
    · have hreleased := h.release hsimilar hb
      exact .inr ⟨_, _, step_operator hf, step_operator hf', hreleased.emitted_eq,
        .cons hb hreleased.pending⟩

/-- **Any tokens** keep two reorderings in step, or end both for the same
reason. -/
theorem inStep_foldlM (h : InStep t t' r r') (hsimilar : Similar t t') (ts : List Token) :
    (∃ e, ts.foldlM (step t) r = .error e ∧ ts.foldlM (step t') r' = .error e) ∨
      ∃ s s', ts.foldlM (step t) r = .ok s ∧ ts.foldlM (step t') r' = .ok s' ∧
        InStep t t' s s' := by
  induction ts generalizing r r' with
  | nil => exact .inr ⟨r, r', rfl, rfl, h⟩
  | cons tok ts ih =>
    rw [List.foldlM_cons, List.foldlM_cons]
    rcases inStep_step h hsimilar tok with ⟨e, hstep, hstep'⟩ | ⟨s, s', hstep, hstep', hs⟩
    · exact .inl ⟨e, by rw [hstep, error_bind], by rw [hstep', error_bind]⟩
    · rw [hstep, hstep', ok_bind, ok_bind]
      exact ih hs

end Reordering

theorem toPostfix_congr {t t' : OperatorTable} (h : Similar t t') (ts : List Token) :
    toPostfix t ts = toPostfix t' ts := by
  have hstart : Reordering.InStep t t' .start .start := ⟨rfl, .nil⟩
  unfold toPostfix
  rcases Reordering.inStep_foldlM hstart h ts with ⟨e, hrun, hrun'⟩ | ⟨s, s', hrun, hrun', hs⟩
  · rw [hrun, hrun']
  · rw [hrun, hrun', Except.map, Except.map, hs.finish_eq]

/-- **What of a table matters.** A table made by any changes has for each
operator its last definition since the table was last replaced. Two tables that
define the same operators, let each one group to the same side and order them
by precedence in the same way give every token list, well-formed or not, the
same postfix order and the same value, or the same error. -/
theorem ofEdits_determined (edits edits' : List TableEdit) :
    (∀ op, (ofEdits edits).get? op =
      (definitions edits.reverse).find? fun b => b.operator = op) ∧
    (Similar (ofEdits edits) (ofEdits edits') → ∀ ts,
      toPostfix (ofEdits edits) ts = toPostfix (ofEdits edits') ts ∧
        evaluate (ofEdits edits) ts = evaluate (ofEdits edits') ts) := by
  refine ⟨get?_ofEdits edits, fun h ts => ?_⟩
  have hsame := toPostfix_congr h ts
  exact ⟨hsame, by rw [evaluate, evaluate, hsame]⟩

/-- Precedences as far apart as they can be do not differ from neighbouring
ones, and what has been overwritten or replaced plays no part. -/
theorem ofEdits_determined_extremes :
    let edits : List TableEdit :=
      [.insert ⟨.plus, .right, 9⟩, .common, .insert ⟨.minus, .left, 3⟩]
    let edits' : List TableEdit :=
      [.collect [⟨.power, .right, 0xFFFFFFFFFFFFFFFF⟩, ⟨.plus, .left, 0⟩, ⟨.times, .left, 1⟩,
        ⟨.divide, .right, 7⟩], .insert ⟨.minus, .left, 1⟩, .insert ⟨.divide, .left, 1⟩]
    let ts : List Token :=
      [.operator .times, .number "8", .number "4", .operator .plus, .number "2", .operator .minus]
    Similar (ofEdits edits) (ofEdits edits') ∧
      (ofEdits edits').get? .divide = some ⟨.divide, .left, 1⟩ ∧
      toPostfix (ofEdits edits) ts = .ok [.number "8", .number "4", .operator .times,
        .number "2", .operator .minus, .operator .plus] ∧
      evaluate (ofEdits edits) ts = .error (.irreducible (.missingOperands .plus ⟨2, 1⟩)) := by
  intro edits edits' ts
  have hsimilar : Similar (ofEdits edits) (ofEdits edits') := by
    refine ⟨?_, ?_, ?_⟩
    · intro op
      cases op <;> decide
    · rintro b b' ⟨op, hb, hb'⟩
      cases op <;> cases hb <;> cases hb' <;> rfl
    · rintro b b' c c' ⟨op, hb, hb'⟩ ⟨op', hc, hc'⟩
      cases op <;> cases hb <;> cases hb' <;> cases op' <;> cases hc <;> cases hc' <;> decide
  have hget := (ofEdits_determined edits' edits).1 .divide
  obtain ⟨horder, hvalue⟩ := (ofEdits_determined edits edits').2 hsimilar ts
  refine ⟨hsimilar, hget.trans (by decide), horder.trans (by decide), hvalue.trans ?_⟩
  decide +kernel

end Keypad
