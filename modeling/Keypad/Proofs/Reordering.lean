/-
How the postfix order of a token list is made of the orders of its parts.

* `foldlM_step_above`: pending operators that no operator read yields to
  stay pending, and what is read is reordered as if they were not there.
* `toPostfix_append_operator`: an operator that yields to every operator before
  it lets what stands before it be reordered first.
* `toPostfix_split`: around an operator that yields to every operator before
  it and that no operator after it yields to, the postfix order is that of
  what stands before, then that of what stands after, then the operator.
-/
import Mathlib.Data.List.TakeWhile
import Keypad.Postfix

namespace Keypad

@[simp] theorem ok_bind {ε α β : Type} (a : α) (f : α → Except ε β) :
    (Except.ok a >>= f) = f a := rfl

@[simp] theorem error_bind {ε α β : Type} (e : ε) (f : α → Except ε β) :
    (Except.error e >>= f) = .error e := rfl

/-- The operators of a token list, in order. -/
def operators (ts : List Token) : List Operator := ts.filterMap Token.operator?

@[simp] theorem operators_nil : operators [] = [] := rfl

@[simp] theorem operators_number (text : String) (ts : List Token) :
    operators (.number text :: ts) = operators ts := rfl

@[simp] theorem operators_operator (op : Operator) (ts : List Token) :
    operators (.operator op :: ts) = op :: operators ts := rfl

@[simp] theorem operators_append (xs ys : List Token) :
    operators (xs ++ ys) = operators xs ++ operators ys :=
  List.filterMap_append

theorem mem_operators {op : Operator} {ts : List Token} :
    op ∈ operators ts ↔ Token.operator op ∈ ts := by
  simp only [operators, List.mem_filterMap]
  constructor
  · rintro ⟨t, ht, hop⟩
    cases t with
    | number text => cases hop
    | operator op' => cases hop; exact ht
  · intro h
    exact ⟨_, h, rfl⟩

/-- The texts of the literals of a token list, in order. -/
def literals (ts : List Token) : List String := ts.filterMap Token.numberText?

@[simp] theorem literals_nil : literals [] = [] := rfl

@[simp] theorem literals_number (text : String) (ts : List Token) :
    literals (.number text :: ts) = text :: literals ts := rfl

@[simp] theorem literals_operator (op : Operator) (ts : List Token) :
    literals (.operator op :: ts) = literals ts := rfl

@[simp] theorem literals_append (xs ys : List Token) :
    literals (xs ++ ys) = literals xs ++ literals ys :=
  List.filterMap_append

theorem mem_literals {text : String} {ts : List Token} :
    text ∈ literals ts ↔ Token.number text ∈ ts := by
  simp only [literals, List.mem_filterMap]
  constructor
  · rintro ⟨t, ht, htext⟩
    cases t with
    | number text' => cases htext; exact ht
    | operator op => cases htext
  · intro h
    exact ⟨_, h, rfl⟩

namespace Reordering

variable {table : OperatorTable}

/-! ## Defined operators -/

theorem step_operator {r : Reordering} {op : Operator} {f : Fixity}
    (hf : table.fixity? op = some f) :
    r.step table (.operator op) =
      .ok ⟨(r.release f).emitted, ⟨op, f⟩ :: (r.release f).pending⟩ := by
  simp only [step, hf]

/-- A run fails at the first operator that is not defined, whatever it has
read before. -/
theorem foldlM_step_eq_error_iff {ts : List Token} {r : Reordering} {e : UnknownOperator} :
    ts.foldlM (step table) r = .error e ↔
      (operators ts).find? (fun op => (table.fixity? op).isNone) = some e.operator := by
  obtain ⟨missing⟩ := e
  induction ts generalizing r with
  | nil => simp [pure, Except.pure]
  | cons t ts ih =>
    rw [List.foldlM_cons]
    cases t with
    | number text => exact ih
    | operator op =>
      cases hf : table.fixity? op with
      | none => simp [step, hf]
      | some f => simpa [step, hf] using ih

/-! ## Above pending operators -/

/-- A reordering on top of what another one has emitted and left pending. -/
def above (r base : Reordering) : Reordering :=
  ⟨r.emitted ++ base.emitted, r.pending ++ base.pending⟩

@[simp] theorem start_above (base : Reordering) : start.above base = base := rfl

theorem finish_above (r base : Reordering) :
    (r.above base).finish = base.emitted.reverse ++ r.finish ++
      base.pending.map fun b => .operator b.operator := by
  simp [above, finish, List.append_assoc]

theorem release_above {r base : Reordering} {f : Fixity}
    (h : ∀ b ∈ base.pending.head?, f.yieldsTo b.fixity = false) :
    (r.above base).release f = (r.release f).above base := by
  have hbase : base.pending.takeWhile (fun b => f.yieldsTo b.fixity) = [] := by
    cases hp : base.pending with
    | nil => rfl
    | cons b bs => simp [h b (by simp [hp])]
  have htake : (r.pending ++ base.pending).takeWhile (fun b => f.yieldsTo b.fixity) =
      r.pending.takeWhile fun b => f.yieldsTo b.fixity := by
    rw [List.takeWhile_append]
    split
    · next hlen =>
      rw [hbase, List.append_nil]
      exact ((List.takeWhile_prefix _).eq_of_length hlen).symm
    · rfl
  simp only [release, above, htake, List.append_assoc]
  rw [List.drop_append_of_le_length (List.takeWhile_prefix _).length_le]

theorem step_above {r base : Reordering} {t : Token}
    (h : ∀ op ∈ operators [t], ∀ f, table.fixity? op = some f →
      ∀ b ∈ base.pending.head?, f.yieldsTo b.fixity = false) :
    (r.above base).step table t = (r.step table t).map (·.above base) := by
  cases t with
  | number text => rfl
  | operator op =>
    simp only [step]
    cases hf : table.fixity? op with
    | none => rfl
    | some f =>
      simp only [release_above (h op (by simp) f hf), Except.map]
      rfl

/-- **Pending operators stay pending** while no operator read yields to the
latest of them, and the tokens read are reordered as on their own. -/
theorem foldlM_step_above {base : Reordering} :
    ∀ {ts : List Token} {r : Reordering},
      (∀ op ∈ operators ts, ∀ f, table.fixity? op = some f →
        ∀ b ∈ base.pending.head?, f.yieldsTo b.fixity = false) →
      ts.foldlM (step table) (r.above base) = (ts.foldlM (step table) r).map (·.above base)
  | [], _, _ => rfl
  | t :: ts, r, h => by
    have hcons : operators (t :: ts) = operators [t] ++ operators ts :=
      operators_append [t] ts
    rw [List.foldlM_cons, List.foldlM_cons,
      step_above fun op hop => h op (by rw [hcons]; exact List.mem_append_left _ hop)]
    cases hstep : r.step table t with
    | error e => rfl
    | ok r' =>
      exact foldlM_step_above fun op hop => h op (by rw [hcons]; exact List.mem_append_right _ hop)

/-! ## What is pending -/

/-- What becomes pending is pending already, or is the operator read. -/
theorem mem_pending_step {r r' : Reordering} {t : Token} (h : r.step table t = .ok r')
    {b : Binding} (hb : b ∈ r'.pending) :
    b ∈ r.pending ∨ t = .operator b.operator ∧ table.fixity? b.operator = some b.fixity := by
  cases t with
  | number text =>
    cases h
    exact .inl hb
  | operator op =>
    simp only [step] at h
    cases hf : table.fixity? op with
    | none => simp [hf] at h
    | some f =>
      simp only [hf, Except.ok.injEq] at h
      subst h
      rcases List.mem_cons.mp hb with rfl | hb
      · exact .inr ⟨rfl, hf⟩
      · rw [pending_release] at hb
        exact .inl ((List.dropWhile_suffix _).subset hb)

/-- Only operators that were read become pending. -/
theorem mem_pending_foldlM {b : Binding} : ∀ {ts : List Token} {r r' : Reordering},
    ts.foldlM (step table) r = .ok r' → b ∈ r'.pending →
      b ∈ r.pending ∨ b.operator ∈ operators ts ∧ table.fixity? b.operator = some b.fixity
  | [], _, _, h, hb => by
    cases h
    exact .inl hb
  | t :: ts, r, r', h, hb => by
    rw [List.foldlM_cons] at h
    cases hstep : r.step table t with
    | error e => rw [hstep] at h; cases h
    | ok r'' =>
      rw [hstep] at h
      rcases mem_pending_foldlM h hb with hb | ⟨hop, hf⟩
      · rcases mem_pending_step hstep hb with hb | ⟨rfl, hf⟩
        · exact .inl hb
        · exact .inr ⟨by simp, hf⟩
      · exact .inr ⟨mem_operators.mpr (List.mem_cons_of_mem _ (mem_operators.mp hop)), hf⟩

/-- An operator that yields to all that is pending leaves nothing pending. -/
theorem release_all {r : Reordering} {f : Fixity}
    (h : ∀ b ∈ r.pending, f.yieldsTo b.fixity = true) : r.release f = ⟨r.finish.reverse, []⟩ := by
  have hpending : (r.release f).pending = [] := by
    rw [pending_release, List.dropWhile_eq_nil_iff]
    exact h
  have hfinish := finish_release r f
  rw [finish, hpending, List.map_nil, List.append_nil] at hfinish
  rw [← hfinish, List.reverse_reverse, ← hpending]

end Reordering

/-! ## Around an operator -/

theorem toPostfix_eq_ok_iff {table : OperatorTable} {ts order : List Token} :
    toPostfix table ts = .ok order ↔
      ∃ r, ts.foldlM (Reordering.step table) .start = .ok r ∧ r.finish = order := by
  unfold toPostfix
  cases ts.foldlM (Reordering.step table) .start with
  | error e => simp [Except.map]
  | ok r => simp [Except.map]

/-- Tokens can be reordered under a table that defines all their operators. -/
theorem exists_toPostfix {table : OperatorTable} {ts : List Token}
    (h : ∀ op ∈ operators ts, (table.fixity? op).isSome) :
    ∃ order, toPostfix table ts = .ok order := by
  cases hrun : ts.foldlM (Reordering.step table) .start with
  | ok r => exact ⟨r.finish, toPostfix_eq_ok_iff.mpr ⟨r, hrun, rfl⟩⟩
  | error e =>
    have hfirst := Reordering.foldlM_step_eq_error_iff.mp hrun
    have hnone := List.find?_some hfirst
    have hsome := h e.operator (List.mem_of_find?_eq_some hfirst)
    rw [Option.isNone_iff_eq_none.mp hnone] at hsome
    cases hsome

/-- After an operator that yields to all operators before it, what stands
before it has been emitted, and it alone is pending. -/
theorem foldlM_step_concat {table : OperatorTable} {xs p : List Token} {op : Operator} {f : Fixity}
    (hop : table.fixity? op = some f)
    (before : ∀ o ∈ operators xs, ∀ g, table.fixity? o = some g → f.yieldsTo g = true)
    (hx : toPostfix table xs = .ok p) :
    (xs ++ [Token.operator op]).foldlM (Reordering.step table) .start =
      .ok ⟨p.reverse, [⟨op, f⟩]⟩ := by
  obtain ⟨r, hr, rfl⟩ := toPostfix_eq_ok_iff.mp hx
  have hrelease : r.release f = ⟨r.finish.reverse, []⟩ := by
    refine Reordering.release_all fun b hb => ?_
    rcases Reordering.mem_pending_foldlM hr hb with hb | ⟨ho, hg⟩
    · cases hb
    · exact before _ ho _ hg
  have hstep : r.step table (.operator op) = .ok ⟨r.finish.reverse, [⟨op, f⟩]⟩ := by
    simp only [Reordering.step, hop, hrelease]
  rw [List.foldlM_append, hr, ok_bind, List.foldlM_cons, hstep]
  rfl

/-- **Reordering in two parts.** If an operator yields to every operator before
it, then the postfix order begins with that of what stands before it. -/
theorem toPostfix_append_operator {table : OperatorTable} {xs p : List Token} {op : Operator}
    {f : Fixity} (hop : table.fixity? op = some f)
    (before : ∀ o ∈ operators xs, ∀ g, table.fixity? o = some g → f.yieldsTo g = true)
    (hx : toPostfix table xs = .ok p) (rest : List Token) :
    toPostfix table (xs ++ .operator op :: rest) =
      (toPostfix table (.operator op :: rest)).map (p ++ ·) := by
  let base : Reordering := ⟨p.reverse, []⟩
  have habove : rest.foldlM (Reordering.step table) ⟨p.reverse, [⟨op, f⟩]⟩ =
      (rest.foldlM (Reordering.step table) ⟨[], [⟨op, f⟩]⟩).map (·.above base) :=
    @Reordering.foldlM_step_above _ base _ ⟨[], [⟨op, f⟩]⟩ (by simp [base])
  have hstep : Reordering.start.step table (.operator op) = .ok ⟨[], [⟨op, f⟩]⟩ := by
    simp only [Reordering.step, hop]
    rfl
  unfold toPostfix
  rw [List.append_cons, List.foldlM_append, foldlM_step_concat hop before hx, ok_bind, habove,
    List.foldlM_cons, hstep, ok_bind]
  cases rest.foldlM (Reordering.step table) ⟨[], [⟨op, f⟩]⟩ with
  | error e => rfl
  | ok r => simp [Except.map, Reordering.finish_above, base]

/-- **The operator applied last.** If an operator yields to every operator
before it and no operator after it yields to it, then it comes last in
postfix order, after what stands before it and what stands after it. -/
theorem toPostfix_split {table : OperatorTable} {xs ys p q : List Token} {op : Operator}
    {f : Fixity} (hop : table.fixity? op = some f)
    (before : ∀ o ∈ operators xs, ∀ g, table.fixity? o = some g → f.yieldsTo g = true)
    (after : ∀ o ∈ operators ys, ∀ g, table.fixity? o = some g → g.yieldsTo f = false)
    (hx : toPostfix table xs = .ok p) (hy : toPostfix table ys = .ok q) :
    toPostfix table (xs ++ .operator op :: ys) = .ok (p ++ q ++ [.operator op]) := by
  obtain ⟨r, hr, rfl⟩ := toPostfix_eq_ok_iff.mp hy
  let base : Reordering := ⟨p.reverse, [⟨op, f⟩]⟩
  -- The operator stays pending below what is read after it.
  have habove : ys.foldlM (Reordering.step table) base = .ok (r.above base) := by
    rw [← Reordering.start_above base, Reordering.foldlM_step_above, hr]
    · rfl
    · intro o ho g hg b hb
      cases hb
      exact after o ho g hg
  refine toPostfix_eq_ok_iff.mpr ⟨r.above base, ?_, ?_⟩
  · rw [List.append_cons, List.foldlM_append, foldlM_step_concat hop before hx, ok_bind]
    exact habove
  · simp [Reordering.finish_above, base]

end Keypad
