/-
How the pending operators are ordered.

No pending operator yields to one below it: towards the top of the stack
precedences do not fall, and where two neighbours have the same one the upper
groups to the right. So an operator that is read yields to the pending ones
from the top down to some point and to none below it.

Reordering is taken apart into moves here. Each of them emits one token or
changes the stack of pending operators by one.

* `order_move`, `toPostfix_eq_ok_iff_moves`: the moves are those of a reordering.
* `nonYielding_move`: every move keeps the order of the pending operators.
* `NonYielding.takeWhile_eq_filter`: in that order nothing is lost by stopping
  at the first operator that is not yielded to.
* `pending_ordered`: the stack at every point of a reordering.
-/
import Mathlib.Data.List.Pairwise
import Mathlib.Logic.Relation
import Keypad.Proofs.Reordering

namespace Keypad

/-! ## Yielding -/

namespace Fixity

variable {f g h : Fixity}

theorem yieldsTo_eq_false_iff : f.yieldsTo g = false ↔
    g.precedence ≤ f.precedence ∧ (g.precedence = f.precedence → f.associativity = .right) := by
  obtain ⟨a, p⟩ := f
  cases a with
  | left =>
    simp only [yieldsTo, decide_eq_false_iff_not, reduceCtorEq, imp_false,
      UInt64.le_iff_toNat_le, ← UInt64.toNat_inj]
    omega
  | right =>
    simp only [yieldsTo, decide_eq_false_iff_not, UInt64.lt_iff_toNat_lt, UInt64.le_iff_toNat_le,
      implies_true, and_true]
    omega

/-- What does not yield to an operator does not yield to those that this one
does not yield to. -/
theorem yieldsTo_eq_false_trans (hfg : f.yieldsTo g = false) (hgh : g.yieldsTo h = false) :
    f.yieldsTo h = false := by
  rw [yieldsTo_eq_false_iff] at hfg hgh ⊢
  obtain ⟨hle, hright⟩ := hfg
  obtain ⟨hle', -⟩ := hgh
  refine ⟨UInt64.le_trans hle' hle, fun heq => hright ?_⟩
  rw [heq] at hle'
  exact UInt64.le_antisymm hle hle'

end Fixity

/-- Of the operators, the latest first, none yields to an earlier one. -/
def NonYielding (bs : List Binding) : Prop :=
  bs.Pairwise fun later earlier => later.fixity.yieldsTo earlier.fixity = false

namespace NonYielding

variable {bs : List Binding} {b : Binding} {f : Fixity}

theorem tail (h : NonYielding (b :: bs)) : NonYielding bs := (List.pairwise_cons.mp h).2

/-- What does not yield to the latest operator yields to none. -/
theorem forall_of_head (h : NonYielding bs) (hhead : ∀ b ∈ bs.head?, f.yieldsTo b.fixity = false) :
    ∀ b ∈ bs, f.yieldsTo b.fixity = false := by
  cases bs with
  | nil => simp
  | cons b bs =>
    have hb : f.yieldsTo b.fixity = false := hhead b rfl
    refine List.forall_mem_cons.mpr ⟨hb, fun c hc => ?_⟩
    exact Fixity.yieldsTo_eq_false_trans hb ((List.pairwise_cons.mp h).1 c hc)

/-- An operator may come on top of those to the latest of which it does not
yield. -/
theorem cons (h : NonYielding bs) (hhead : ∀ c ∈ bs.head?, b.fixity.yieldsTo c.fixity = false) :
    NonYielding (b :: bs) :=
  List.pairwise_cons.mpr ⟨h.forall_of_head hhead, h⟩

/-- **Nothing is lost by stopping.** The operators before the first that is
not yielded to are all that are yielded to. -/
theorem takeWhile_eq_filter (h : NonYielding bs) (f : Fixity) :
    bs.takeWhile (fun b => f.yieldsTo b.fixity) = bs.filter fun b => f.yieldsTo b.fixity := by
  induction bs with
  | nil => rfl
  | cons b bs ih =>
    cases hb : f.yieldsTo b.fixity with
    | true => simp [hb, ih h.tail]
    | false =>
      have hnone := h.forall_of_head (f := f) fun c hc => by cases hc; exact hb
      rw [List.takeWhile_cons_of_neg (by simp [hb]), eq_comm, List.filter_eq_nil_iff]
      intro c hc
      simp [hnone c hc]

theorem dropWhile_eq_filter (h : NonYielding bs) (f : Fixity) :
    bs.dropWhile (fun b => f.yieldsTo b.fixity) = bs.filter fun b => !f.yieldsTo b.fixity := by
  induction bs with
  | nil => rfl
  | cons b bs ih =>
    cases hb : f.yieldsTo b.fixity with
    | true => simp [hb, ih h.tail]
    | false =>
      have hnone := h.forall_of_head (f := f) fun c hc => by cases hc; exact hb
      rw [List.dropWhile_cons_of_neg (by simp [hb]), eq_comm, List.filter_eq_self]
      intro c hc
      simp [hnone c hc]

/-- Towards the top precedences do not fall. -/
theorem pairwise_reverse (h : NonYielding bs) : bs.reverse.Pairwise fun lower upper =>
    lower.fixity.precedence ≤ upper.fixity.precedence :=
  List.pairwise_reverse.mpr (h.imp fun hno => (Fixity.yieldsTo_eq_false_iff.mp hno).1)

/-- Of two with the same precedence the upper one groups to the right. -/
theorem pairwise_reverse_right (h : NonYielding bs) : bs.reverse.Pairwise fun lower upper =>
    lower.fixity.precedence = upper.fixity.precedence → upper.fixity.associativity = .right :=
  List.pairwise_reverse.mpr (h.imp fun hno => (Fixity.yieldsTo_eq_false_iff.mp hno).2)

end NonYielding

/-! ## Moves -/

namespace Reordering

/-- A point of a reordering: what has been emitted and is pending, and the
tokens that remain to be read. -/
structure Point where
  reached : Reordering
  remaining : List Token

/-- One move of a reordering: a token is emitted, or an operator that was read
becomes pending. -/
inductive Move (table : OperatorTable) : Point → Point → Prop
  /-- A literal is emitted. -/
  | literal {emitted : List Token} {pending : List Binding} {text : String} {rest : List Token} :
      Move table ⟨⟨emitted, pending⟩, .number text :: rest⟩
        ⟨⟨.number text :: emitted, pending⟩, rest⟩
  /-- The operator to be read yields to the latest pending one. -/
  | release {emitted : List Token} {b : Binding} {pending : List Binding} {op : Operator}
      {f : Fixity} {rest : List Token} :
      table.fixity? op = some f → f.yieldsTo b.fixity = true →
      Move table ⟨⟨emitted, b :: pending⟩, .operator op :: rest⟩
        ⟨⟨.operator b.operator :: emitted, pending⟩, .operator op :: rest⟩
  /-- It does not yield to the latest one, or none is pending. -/
  | suspend {emitted : List Token} {pending : List Binding} {op : Operator} {f : Fixity}
      {rest : List Token} :
      table.fixity? op = some f → (∀ b ∈ pending.head?, f.yieldsTo b.fixity = false) →
      Move table ⟨⟨emitted, pending⟩, .operator op :: rest⟩ ⟨⟨emitted, ⟨op, f⟩ :: pending⟩, rest⟩
  /-- No token remains to be read. -/
  | flush {emitted : List Token} {b : Binding} {pending : List Binding} :
      Move table ⟨⟨emitted, b :: pending⟩, []⟩ ⟨⟨.operator b.operator :: emitted, pending⟩, []⟩

/-- Any number of moves. -/
abbrev Moves (table : OperatorTable) : Point → Point → Prop := Relation.ReflTransGen (Move table)

variable {table : OperatorTable} {r r' : Reordering} {ts rest : List Token} {p p' : Point}

/-! ## Moves and reorderings -/

/-- Releasing is done one operator at a time. -/
theorem moves_release {op : Operator} {f : Fixity} (hf : table.fixity? op = some f)
    (r : Reordering) (rest : List Token) :
    Moves table ⟨r, .operator op :: rest⟩ ⟨r.release f, .operator op :: rest⟩ := by
  obtain ⟨emitted, pending⟩ := r
  induction pending generalizing emitted with
  | nil => exact .refl
  | cons b bs ih =>
    cases hb : f.yieldsTo b.fixity with
    | true =>
      have hrelease : release ⟨emitted, b :: bs⟩ f = release ⟨.operator b.operator :: emitted, bs⟩ f := by
        simp [release, hb]
      rw [hrelease]
      exact .head (.release hf hb) (ih _)
    | false =>
      have hrelease : release ⟨emitted, b :: bs⟩ f = ⟨emitted, b :: bs⟩ := by
        simp [release, hb]
      rw [hrelease]

theorem head?_pending_release (r : Reordering) (f : Fixity) :
    ∀ b ∈ (r.release f).pending.head?, f.yieldsTo b.fixity = false := by
  intro b hb
  have hnot := List.head?_dropWhile_not (fun b : Binding => f.yieldsTo b.fixity) r.pending
  rw [← pending_release, Option.mem_def.mp hb] at hnot
  simpa using hnot

/-- An operator is released to and then suspended. -/
theorem move_suspend {op : Operator} {f : Fixity} (hf : table.fixity? op = some f)
    (r : Reordering) (rest : List Token) :
    Move table ⟨r.release f, .operator op :: rest⟩
      ⟨⟨(r.release f).emitted, ⟨op, f⟩ :: (r.release f).pending⟩, rest⟩ :=
  .suspend hf (head?_pending_release r f)

/-- Reading a token takes some moves. -/
theorem moves_step {t : Token} (h : r.step table t = .ok r') (rest : List Token) :
    Moves table ⟨r, t :: rest⟩ ⟨r', rest⟩ := by
  cases t with
  | number text =>
    cases h
    exact .single .literal
  | operator op =>
    cases hf : table.fixity? op with
    | none => simp [step, hf] at h
    | some f =>
      rw [step_operator hf] at h
      cases h
      exact (moves_release hf r rest).tail (move_suspend hf r rest)

theorem moves_foldlM (h : ts.foldlM (step table) r = .ok r') (rest : List Token) :
    Moves table ⟨r, ts ++ rest⟩ ⟨r', rest⟩ := by
  induction ts generalizing r with
  | nil =>
    cases h
    exact .refl
  | cons t ts ih =>
    rw [List.foldlM_cons] at h
    cases hstep : r.step table t with
    | error e => rw [hstep] at h; cases h
    | ok next =>
      rw [hstep] at h
      exact (moves_step hstep (ts ++ rest)).trans (ih h)

theorem moves_finish (r : Reordering) : Moves table ⟨r, []⟩ ⟨⟨r.finish.reverse, []⟩, []⟩ := by
  obtain ⟨emitted, pending⟩ := r
  induction pending generalizing emitted with
  | nil =>
    rw [finish, List.map_nil, List.append_nil, List.reverse_reverse]
  | cons b bs ih =>
    have hfinish : finish ⟨emitted, b :: bs⟩ = finish ⟨.operator b.operator :: emitted, bs⟩ := by
      simp [finish]
    rw [hfinish]
    exact .head .flush (ih _)

/-- The order that a reordering ends with if it goes on from a point. -/
def Point.order (table : OperatorTable) (p : Point) : Except UnknownOperator (List Token) :=
  (p.remaining.foldlM (step table) p.reached).map finish

/-- No move changes what the reordering ends with. -/
theorem order_move (h : Move table p p') : p'.order table = p.order table := by
  cases h with
  | literal => rfl
  | @release emitted b pending op f rest hf hb =>
    have hstep : step table ⟨emitted, b :: pending⟩ (.operator op) =
        step table ⟨.operator b.operator :: emitted, pending⟩ (.operator op) := by
      simp [step, hf, release, hb]
    simp only [Point.order, List.foldlM_cons, hstep]
  | @suspend emitted pending op f rest hf hhead =>
    have hrelease : release ⟨emitted, pending⟩ f = ⟨emitted, pending⟩ := by
      cases pending with
      | nil => rfl
      | cons b bs =>
        have hb : f.yieldsTo b.fixity = false := hhead b rfl
        simp [release, hb]
    simp only [Point.order, List.foldlM_cons, step_operator hf, hrelease, ok_bind]
  | flush => simp [Point.order, finish, pure, Except.pure, Except.map]

theorem order_moves (h : Moves table p p') : p'.order table = p.order table := by
  induction h with
  | refl => rfl
  | tail _ hmove ih => rw [order_move hmove, ih]

/-- **Moves and postfix orders.** A token list has a postfix order if moves
lead from its first token to where nothing remains and nothing is pending, and
that order is what they have emitted. -/
theorem toPostfix_eq_ok_iff_moves {order : List Token} : toPostfix table ts = .ok order ↔
    Moves table ⟨.start, ts⟩ ⟨⟨order.reverse, []⟩, []⟩ := by
  constructor
  · intro h
    obtain ⟨r, hrun, rfl⟩ := toPostfix_eq_ok_iff.mp h
    have hread := moves_foldlM hrun []
    rw [List.append_nil] at hread
    exact hread.trans (moves_finish r)
  · intro h
    have horder := order_moves h
    simp only [Point.order, List.foldlM_nil] at horder
    rw [toPostfix, ← horder]
    simp [pure, Except.pure, Except.map, finish]

/-! ## The order of the pending operators -/

/-- **One move** keeps the order of the pending operators. -/
theorem nonYielding_move (h : NonYielding p.reached.pending) (hmove : Move table p p') :
    NonYielding p'.reached.pending := by
  cases hmove with
  | literal => exact h
  | release _ _ => exact h.tail
  | suspend _ hhead => exact h.cons hhead
  | flush => exact h.tail

theorem nonYielding_moves (h : NonYielding p.reached.pending) (hmoves : Moves table p p') :
    NonYielding p'.reached.pending := by
  induction hmoves with
  | refl => exact h
  | tail _ hmove ih => exact nonYielding_move ih hmove

theorem release_eq_filter (h : NonYielding r.pending) (f : Fixity) : r.release f =
    ⟨((r.pending.filter fun b => f.yieldsTo b.fixity).map fun b => .operator b.operator).reverse ++
      r.emitted, r.pending.filter fun b => !f.yieldsTo b.fixity⟩ := by
  have hpending := pending_release r f
  rw [h.dropWhile_eq_filter] at hpending
  rw [← hpending, ← h.takeWhile_eq_filter]
  rfl

/-- **The stack of pending operators.** A reordering goes from one token to the
next by moves, and the postfix order of a token list is what moves from its first
token emit until nothing remains and nothing is pending. At every point that moves
lead to, be the list well-formed or not, the precedences of the pending operators
do not fall from the bottom of the stack to its top, and of two neighbours with
the same precedence the upper one groups to the right. So wherever an operator is
read just those pending operators are released that it yields to, and all of them,
before it becomes pending itself. -/
theorem pending_ordered (table : OperatorTable) (ts : List Token) :
    (∀ before rest r, ts = before ++ rest → before.foldlM (step table) .start = .ok r →
      Moves table ⟨.start, ts⟩ ⟨r, rest⟩) ∧
    (∀ order, toPostfix table ts = .ok order ↔
      Moves table ⟨.start, ts⟩ ⟨⟨order.reverse, []⟩, []⟩) ∧
    (∀ p, Moves table ⟨.start, ts⟩ p →
      (p.reached.pending.reverse.Pairwise fun lower upper =>
        lower.fixity.precedence ≤ upper.fixity.precedence) ∧
      (p.reached.pending.reverse.IsChain fun lower upper =>
        lower.fixity.precedence = upper.fixity.precedence →
          upper.fixity.associativity = .right)) ∧
    ∀ emitted pending op rest f,
      Moves table ⟨.start, ts⟩ ⟨⟨emitted, pending⟩, .operator op :: rest⟩ →
      table.fixity? op = some f →
      let released := (pending.filter fun b => f.yieldsTo b.fixity).map fun b =>
        Token.operator b.operator
      let kept := pending.filter fun b => !f.yieldsTo b.fixity
      release ⟨emitted, pending⟩ f = ⟨released.reverse ++ emitted, kept⟩ ∧
      Moves table ⟨⟨emitted, pending⟩, .operator op :: rest⟩
        ⟨⟨released.reverse ++ emitted, kept⟩, .operator op :: rest⟩ ∧
      Move table ⟨⟨released.reverse ++ emitted, kept⟩, .operator op :: rest⟩
        ⟨⟨released.reverse ++ emitted, ⟨op, f⟩ :: kept⟩, rest⟩ := by
  have hordered : ∀ {p}, Moves table ⟨.start, ts⟩ p → NonYielding p.reached.pending :=
    nonYielding_moves .nil
  refine ⟨?_, fun order => toPostfix_eq_ok_iff_moves, fun p hp => ?_, ?_⟩
  · rintro before rest r rfl hrun
    exact moves_foldlM hrun rest
  · exact ⟨(hordered hp).pairwise_reverse, (hordered hp).pairwise_reverse_right.isChain⟩
  · intro emitted pending op rest f hp hf released kept
    have hrelease : release ⟨emitted, pending⟩ f = ⟨released.reverse ++ emitted, kept⟩ :=
      release_eq_filter (hordered hp) f
    have hmoves := moves_release hf ⟨emitted, pending⟩ rest
    have hmove := move_suspend hf ⟨emitted, pending⟩ rest
    rw [hrelease] at hmoves hmove
    exact ⟨hrelease, hmoves, hmove⟩

end Reordering

end Keypad
