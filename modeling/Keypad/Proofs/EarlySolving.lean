/-
Solving early changes nothing.

If the operator typed next yields to all operators of a complete expression,
then nothing typed after it can take an operand out of that expression: it
could as well be a literal of its value, which is what solving it leaves.

* `Chain.evaluate_append_operator`: in front of such an operator a complete
  expression can be replaced by a literal of its value.
* `Entry.foldl_typed_above`: typing goes on in the same way on top of any
  earlier tokens.
* `solve_early`: so solving early comes to the same in the end.
-/
import Keypad.Proofs.NumberTexts
import Keypad.Proofs.Solving

namespace Keypad

/-! ## In front of an operator -/

/-- **A complete expression and its value** are the same to what follows an
operator that yields to all operators of the expression. -/
theorem Chain.evaluate_append_operator {table : OperatorTable} {c : Chain} (h : c.DefinedBy table)
    {op : Operator} {f : Fixity} (hop : table.fixity? op = some f)
    (hyields : ∀ l ∈ c.links, f.yieldsTo l.1.fixity = true) {text : String}
    (htext : NumberText.read text = c.group.value) (rest : List Token) :
    evaluate table (c.tokens ++ .operator op :: rest) =
      evaluate table (.number text :: .operator op :: rest) := by
  have hchain : toPostfix table (c.tokens ++ .operator op :: rest) =
      (toPostfix table (.operator op :: rest)).map (c.group.postorder ++ ·) := by
    refine toPostfix_append_operator hop (fun o ho g hg => ?_) (toPostfix_postorder_group h) rest
    obtain ⟨l, hl, rfl⟩ := h.of_mem_operators ho hg
    exact hyields l hl
  have hliteral : toPostfix table (.number text :: .operator op :: rest) =
      (toPostfix table (.operator op :: rest)).map ((Expr.literal text).postorder ++ ·) :=
    @toPostfix_append_operator _ [.number text] _ _ _ hop (by simp) rfl rest
  simp only [evaluate, hchain, hliteral]
  cases toPostfix table (.operator op :: rest) with
  | error e => rfl
  | ok order =>
    have hreduce : reduce (c.group.postorder ++ order) =
        reduce ((Expr.literal text).postorder ++ order) := by
      simp only [reduce, List.foldlM_append, foldlM_reduceStep_postorder, Expr.value, htext]
    simp only [Except.map, hreduce]

/-- Sums yield to all operators, and products to all but sums. -/
theorem Operator.yieldsTo_common {op op' : Operator}
    (h : (op = .plus ∨ op = .minus) ∨ (op = .times ∨ op = .divide) ∧ op' ≠ .plus ∧ op' ≠ .minus) :
    op.common.fixity.yieldsTo op'.common.fixity = true := by
  revert h
  cases op <;> cases op' <;> decide

theorem Chain.DefinedBy.yieldsTo_common {c : Chain} (h : c.DefinedBy .common) {op : Operator}
    (hop : (op = .plus ∨ op = .minus) ∨ (op = .times ∨ op = .divide) ∧
      ∀ t ∈ c.tokens, t ≠ .operator .plus ∧ t ≠ .operator .minus) :
    ∀ l ∈ c.links, op.common.fixity.yieldsTo l.1.fixity = true := by
  intro l hl
  rw [h.eq_common hl]
  apply Operator.yieldsTo_common
  refine hop.imp_right fun ⟨hproduct, hsums⟩ => ⟨hproduct, ?_⟩
  have hmem : Token.operator l.1.operator ∈ c.tokens := by
    rw [← mem_operators, Chain.operators_tokens]
    exact List.mem_map_of_mem hl
  simpa using hsums _ hmem

/-! ## Typing on top of earlier tokens -/

namespace Entry

/-- What typing makes of an entry. The keys `=` and `C` do not type. -/
def typed (e : Entry) : Key → Entry
  | .digit d => e.appendDigit d
  | .point => e.appendPoint.toOption.getD e
  | .operator op => (e.appendOperator op).toOption.getD e
  | .solve => e
  | .clear => e

/-- An entry on top of further tokens, the latest of them first. -/
def above (e : Entry) (base : List Token) : Entry := ⟨e.earlier ++ base, e.last⟩

theorem tokens_above (e : Entry) (base : List Token) :
    (e.above base).tokens = base.reverse ++ e.tokens := by
  simp [above, tokens]

/-- Only the last token decides what typing does. -/
theorem typed_above (e : Entry) (base : List Token) (key : Key) :
    (e.above base).typed key = (e.typed key).above base := by
  obtain ⟨earlier, last⟩ := e
  cases key with
  | digit d => cases last <;> rfl
  | point =>
    cases last with
    | operator op => rfl
    | number text =>
      simp only [typed, appendPoint, above]
      split <;> rfl
  | operator op =>
    cases last with
    | operator op' => rfl
    | number text =>
      simp only [typed, appendOperator, above]
      split <;> rfl
  | solve => rfl
  | clear => rfl

theorem foldl_typed_above (e : Entry) (base : List Token) (keys : List Key) :
    keys.foldl typed (e.above base) = (keys.foldl typed e).above base := by
  induction keys generalizing e with
  | nil => rfl
  | cons key keys ih => rw [List.foldl_cons, typed_above, ih, List.foldl_cons]

/-- An operator is accepted after a literal. -/
theorem exists_last_of_appendOperator {e : Entry} {op : Operator}
    (h : ∃ e', e.appendOperator op = .ok e') : ∃ text, e.last = .number text := by
  obtain ⟨e', h⟩ := h
  cases hlast : e.last with
  | number text => exact ⟨text, rfl⟩
  | operator op' =>
    simp only [appendOperator, hlast] at h
    cases h

theorem typed_operator {e : Entry} {op : Operator} (h : ∃ e', e.appendOperator op = .ok e') :
    e.typed (.operator op) = ⟨e.last :: e.earlier, .operator op⟩ := by
  obtain ⟨text, hlast⟩ := exists_last_of_appendOperator h
  obtain ⟨e', h⟩ := h
  simp only [typed, appendOperator, hlast] at h ⊢
  split
  · simp_all
  · rfl

/-- Typing leaves the tokens before the last one as they are. -/
theorem earlier_typed (e : Entry) (key : Key) :
    (e.typed key).earlier = e.earlier ∨ (e.typed key).earlier = e.last :: e.earlier := by
  obtain ⟨earlier, last⟩ := e
  cases key with
  | digit d =>
    cases last with
    | number text => exact .inl rfl
    | operator op => exact .inr rfl
  | point =>
    cases last with
    | operator op => exact .inl rfl
    | number text =>
      simp only [typed, appendPoint]
      split <;> exact .inl rfl
  | operator op =>
    cases last with
    | operator op' => exact .inl rfl
    | number text =>
      simp only [typed, appendOperator]
      split
      · exact .inl rfl
      · exact .inr rfl
  | solve | clear => exact .inl rfl

/-- Nothing can be typed in front of an operator or in place of it. -/
theorem exists_tokens_foldl_typed (op : Operator) (keys : List Key) :
    ∃ rest, (keys.foldl typed ⟨[], .operator op⟩).tokens = .operator op :: rest := by
  have hkeys : ∀ {e : Entry},
      (e = ⟨[], .operator op⟩ ∨ ∃ later, e.earlier = later ++ [.operator op]) →
        ∃ rest, (keys.foldl typed e).tokens = .operator op :: rest := by
    induction keys with
    | nil =>
      rintro e (rfl | ⟨later, he⟩)
      · exact ⟨[], rfl⟩
      · exact ⟨later.reverse ++ [e.last], by simp [tokens_eq, he]⟩
    | cons key keys ih =>
      rintro e (rfl | ⟨later, he⟩)
      · cases key with
        | digit d => exact ih (.inr ⟨[], rfl⟩)
        | point | operator _ | solve | clear => exact ih (.inl rfl)
      · rcases e.earlier_typed key with h | h
        · exact ih (.inr ⟨later, by rw [h, he]⟩)
        · exact ih (.inr ⟨e.last :: later, by rw [h, he]; rfl⟩)
  exact hkeys (.inl rfl)

end Entry

namespace Calculator

theorem press_of_typing (c : Calculator) {key : Key} (h : key ≠ .solve ∧ key ≠ .clear) :
    (c.press key).calculator = { c with entry := c.entry.typed key } ∧
      (c.press key).outcome? = none := by
  cases key with
  | digit d => exact ⟨rfl, rfl⟩
  | point =>
    simp only [press, Entry.typed]
    cases c.entry.appendPoint <;> exact ⟨rfl, rfl⟩
  | operator op =>
    simp only [press, Entry.typed]
    cases c.entry.appendOperator op <;> exact ⟨rfl, rfl⟩
  | solve => exact absurd rfl h.1
  | clear => exact absurd rfl h.2

theorem pressAll_of_typing (c : Calculator) {keys : List Key}
    (h : ∀ key ∈ keys, key ≠ .solve ∧ key ≠ .clear) :
    (c.pressAll keys).calculator = { c with entry := keys.foldl Entry.typed c.entry } ∧
      (c.pressAll keys).outcomes = [] := by
  induction keys generalizing c with
  | nil => exact ⟨rfl, rfl⟩
  | cons key keys ih =>
    obtain ⟨hkey, hkeys⟩ := List.forall_mem_cons.mp h
    obtain ⟨hpress, hnone⟩ := c.press_of_typing hkey
    obtain ⟨hcalculator, houtcomes⟩ := ih (c.press key).calculator hkeys
    refine ⟨?_, ?_⟩
    · rw [pressAll_cons, hcalculator, hpress]
      rfl
    · simp only [pressAll, hnone, houtcomes]
      rfl

theorem pressAll_solve (c : Calculator) :
    let outcome := evaluate .common c.entry.tokens
    (c.pressAll [.solve]).calculator = { c with entry := .ofNumber (c.outcomeText outcome) } ∧
      (c.pressAll [.solve]).outcomes = [outcome] := by
  obtain ⟨log, hsolve⟩ := c.exists_solve_eq
  simp only [pressAll, press, hsolve]
  exact ⟨rfl, rfl⟩

/-- Typing an operator and further keys and solving then answers the value of
the tokens so far with what was typed after them. -/
theorem pressAll_operator_solve {c : Calculator} {op : Operator} {keys : List Key}
    (hop : ∃ e, c.entry.appendOperator op = .ok e)
    (h : ∀ key ∈ keys, key ≠ .solve ∧ key ≠ .clear) :
    let outcome := evaluate .common
      (c.entry.tokens ++ (keys.foldl Entry.typed ⟨[], .operator op⟩).tokens)
    (c.pressAll (Key.operator op :: keys ++ [Key.solve])).calculator =
        { c with entry := .ofNumber (c.outcomeText outcome) } ∧
      (c.pressAll (Key.operator op :: keys ++ [Key.solve])).outcomes = [outcome] := by
  intro outcome
  have htyping : ∀ key ∈ Key.operator op :: keys, key ≠ .solve ∧ key ≠ .clear :=
    List.forall_mem_cons.mpr ⟨⟨nofun, nofun⟩, h⟩
  have hentry : (Key.operator op :: keys).foldl Entry.typed c.entry =
      (keys.foldl Entry.typed ⟨[], .operator op⟩).above (c.entry.last :: c.entry.earlier) := by
    rw [List.foldl_cons, ← Entry.foldl_typed_above, Entry.typed_operator hop]
    rfl
  obtain ⟨hcalculator, hnone⟩ := c.pressAll_of_typing htyping
  obtain ⟨hsolve, houtcome⟩ := (c.pressAll (.operator op :: keys)).calculator.pressAll_solve
  have htokens : (c.pressAll (.operator op :: keys)).calculator.entry.tokens =
      c.entry.tokens ++ (keys.foldl Entry.typed ⟨[], .operator op⟩).tokens := by
    rw [hcalculator, hentry, Entry.tokens_above]
    rfl
  rw [htokens] at hsolve houtcome
  rw [calculator_pressAll_append, outcomes_pressAll_append, hsolve, hnone, houtcome, hcalculator]
  exact ⟨rfl, rfl⟩

/-- **Solving first** comes to the same in the end if, with an operator and
anything after it, the value of the entry can stand for the entry. -/
theorem pressAll_solve_operator {c : Calculator} {v : Float} {op : Operator} {keys : List Key}
    (hvalue : evaluate .common c.entry.tokens = .ok v)
    (hop : ∃ e, c.entry.appendOperator op = .ok e) (h : ∀ key ∈ keys, key ≠ .solve ∧ key ≠ .clear)
    (hsame : ∀ rest, evaluate .common (.number (NumberText.shown v) :: .operator op :: rest) =
      evaluate .common (c.entry.tokens ++ .operator op :: rest)) :
    let later := Key.operator op :: keys ++ [Key.solve]
    ∃ outcome, (c.pressAll later).outcomes = [outcome] ∧
      (c.pressAll (.solve :: later)).outcomes = [.ok v, outcome] ∧
      (c.pressAll (.solve :: later)).calculator = (c.pressAll later).calculator := by
  intro later
  let solved : Calculator := { c with entry := .ofNumber (NumberText.shown v) }
  obtain ⟨hsolved, hfirst⟩ := c.pressAll_solve
  rw [hvalue] at hsolved hfirst
  have hsolvedOp : ∃ e, solved.entry.appendOperator op = .ok e :=
    ⟨_, if_neg (NumberText.shown_ne_empty v)⟩
  obtain ⟨hlate, hlateOutcome⟩ := pressAll_operator_solve hop h
  obtain ⟨hearly, hearlyOutcome⟩ := pressAll_operator_solve hsolvedOp h
  -- What is typed begins with the operator, so the value stands in front of it.
  obtain ⟨rest, hrest⟩ := Entry.exists_tokens_foldl_typed op keys
  have hsolvedSame : evaluate .common (solved.entry.tokens ++ .operator op :: rest) =
      evaluate .common (c.entry.tokens ++ .operator op :: rest) := hsame rest
  rw [hrest] at hlate hlateOutcome hearly hearlyOutcome
  rw [hsolvedSame] at hearly hearlyOutcome
  refine ⟨_, hlateOutcome, ?_, ?_⟩
  · have happend := c.outcomes_pressAll_append [.solve] later
    rw [hfirst, hsolved] at happend
    exact happend.trans (congrArg _ hearlyOutcome)
  · have happend := c.calculator_pressAll_append [.solve] later
    rw [hsolved] at happend
    rw [hlate]
    exact happend.trans hearly

end Calculator

/-- **Solving early is harmless.** After any keys, let an operator be accepted
that yields to all operators typed so far: a sum, or a product where there is
no sum. Whatever is typed after it, solving in the end answers the same, and
leaves the same on the display, if the expression so far is solved first; only
a result of negative zero is excluded, as zero is shown for it. -/
theorem solve_early (settings : Settings) (keys typed : List Key) (op : Operator)
    (hop : (op = .plus ∨ op = .minus) ∨ (op = .times ∨ op = .divide) ∧
      ∀ t ∈ ((Calculator.new settings).pressAll keys).calculator.entry.tokens,
        t ≠ .operator .plus ∧ t ≠ .operator .minus)
    (haccepted : ∃ e,
      ((Calculator.new settings).pressAll keys).calculator.entry.appendOperator op = .ok e)
    (htyped : ∀ key ∈ typed, key ≠ .solve ∧ key ≠ .clear) :
    let c := ((Calculator.new settings).pressAll keys).calculator
    let later := Key.operator op :: typed ++ [Key.solve]
    ∃ v, c.solve.outcome? = some (.ok v) ∧ (v.toBits ≠ 0x8000000000000000 →
      ∃ outcome, (c.pressAll later).outcomes = [outcome] ∧
        (c.pressAll (.solve :: later)).outcomes = [.ok v, outcome] ∧
        (c.pressAll (.solve :: later)).calculator = (c.pressAll later).calculator) := by
  intro c later
  have hgrown : Grown _ c.entry.earlier c.entry.last := (Calculator.grown_pressAll settings keys).2
  -- An operator is accepted, so the expression so far is a chain.
  obtain ⟨text, hlast⟩ := Entry.exists_last_of_appendOperator haccepted
  rw [hlast] at hgrown
  obtain ⟨chain, hdef, hchain⟩ := hgrown.exists_chain
  have htokens : c.entry.tokens = chain.tokens := by
    rw [Entry.tokens_eq, hlast]
    exact hchain
  have hvalue : evaluate .common c.entry.tokens = .ok chain.group.value := by
    rw [htokens, Chain.evaluate_value_group hdef]
  have hyields := hdef.yieldsTo_common (by rwa [← htokens])
  refine ⟨chain.group.value, by rw [c.outcome?_solve, hvalue], fun hzero => ?_⟩
  refine Calculator.pressAll_solve_operator hvalue haccepted htyped fun rest => ?_
  have hop := (OperatorTable.get?_eq_some_iff.mp op.get?_common).2
  rw [htokens, Chain.evaluate_append_operator hdef hop hyields
    (NumberText.read_shown_of_toBits_ne hzero)]

/-- `2 * 2.` and then `/ 2 ^ 2 +`, with keys that are refused and an operator
that is left dangling: solving fails in the same way. -/
theorem solve_early_product :
    let two := Key.digit ⟨2, by decide⟩
    let keys := [two, .operator .times, two, .point, .point]
    let typed := [.point, two, .operator .power, .operator .power, two, .operator .plus]
    let c := ((Calculator.new .default).pressAll keys).calculator
    let later := Key.operator .divide :: typed ++ [Key.solve]
    c.entry.tokens = [.number "2", .operator .times, .number "2."] ∧
      (∃ e, c.entry.appendOperator .divide = .ok e) ∧
      (∀ key ∈ typed, key ≠ .solve ∧ key ≠ .clear) ∧
      ∃ v, c.solve.outcome? = some (.ok v) ∧ v.toBits = 0x4010000000000000 ∧
        ∃ outcome, (c.pressAll later).outcomes = [outcome] ∧
          (c.pressAll (.solve :: later)).outcomes = [.ok v, outcome] ∧
          (c.pressAll (.solve :: later)).calculator = (c.pressAll later).calculator := by
  intro two keys typed c later
  have htokens : c.entry.tokens = [.number "2", .operator .times, .number "2."] := by decide
  have haccepted : ∃ e, c.entry.appendOperator .divide = .ok e := ⟨_, rfl⟩
  have htyped : ∀ key ∈ typed, key ≠ .solve ∧ key ≠ .clear := by decide
  have hproducts : ∀ t ∈ c.entry.tokens, t ≠ .operator .plus ∧ t ≠ .operator .minus := by decide
  obtain ⟨v, hv, hsame⟩ := solve_early .default keys typed .divide
    (.inr ⟨.inr rfl, hproducts⟩) haccepted htyped
  have hvalue : evaluate .common c.entry.tokens = .ok (Float.ofBits 0x4010000000000000) := by
    decide +kernel
  have hfour : v = Float.ofBits 0x4010000000000000 := by
    have := hv.symm.trans (c.outcome?_solve.trans (congrArg some hvalue))
    cases this
    rfl
  have hbits : v.toBits = 0x4010000000000000 := by
    rw [hfour]
    decide +kernel
  exact ⟨htokens, haccepted, htyped, v, hv, hbits, hsame (by rw [hbits]; decide)⟩

end Keypad
