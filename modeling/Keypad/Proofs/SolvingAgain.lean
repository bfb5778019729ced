/-
Solving again changes nothing.

What solving leaves is a literal that shows the result. It is read as the
result, only that negative zero is read as zero, and the result of that is
shown in the same way.

* `press_solve_shown`: solving a shown result leaves the calculator as it is.
* `solve_again`: so does solving any number of times after a success.
-/
import Keypad.Proofs.EarlySolving

namespace Keypad

/-- A literal that stands alone has the value it is read as. -/
theorem evaluate_literal (table : OperatorTable) (text : String) :
    evaluate table [.number text] = .ok (NumberText.read text) := rfl

namespace Calculator

/-- **A shown result solves to itself.** -/
theorem press_solve_shown (settings : Settings) (v : Float) :
    let c : Calculator := ⟨settings, .ofNumber (NumberText.shown v)⟩
    (c.press .solve).calculator = c ∧
      (c.press .solve).outcome? = some (.ok (NumberText.read (NumberText.shown v))) := by
  intro c
  obtain ⟨log, hsolve⟩ := c.exists_solve_eq
  rw [press, hsolve, Entry.tokens_ofNumber, evaluate_literal]
  refine ⟨?_, rfl⟩
  simp only [conclude, outcomeText, NumberText.shown_read_shown]
  rfl

/-- A key that leaves the calculator as it is can be pressed any number of
times. -/
theorem pressAll_replicate {c : Calculator} {key : Key} {outcome : Outcome}
    (hcalculator : (c.press key).calculator = c) (houtcome : (c.press key).outcome? = some outcome)
    (n : Nat) : (c.pressAll (List.replicate n key)).calculator = c ∧
      (c.pressAll (List.replicate n key)).outcomes = List.replicate n outcome := by
  induction n with
  | zero => exact ⟨rfl, rfl⟩
  | succ n ih =>
    obtain ⟨hrest, houtcomes⟩ := ih
    constructor
    · rw [List.replicate_succ, pressAll_cons, hcalculator, hrest]
    · simp only [List.replicate_succ, pressAll, hcalculator, houtcome, houtcomes]
      rfl

theorem solve_eq_of_ok {c : Calculator} {v : Float} (h : c.solve.outcome? = some (.ok v)) :
    c.solve.calculator = ⟨c.settings, .ofNumber (NumberText.shown v)⟩ := by
  obtain ⟨log, hsolve⟩ := c.exists_solve_eq
  rw [c.outcome?_solve, Option.some.injEq] at h
  rw [hsolve, h]
  rfl

end Calculator

/-- **Solving is idempotent.** Where solving succeeds it leaves a single
literal. Solving again, any number of times, leaves the calculator as it is
and answers the same double, bit for bit; only that zero is answered where the
result was negative zero. -/
theorem solve_again (c : Calculator) (v : Float) (h : c.solve.outcome? = some (.ok v)) :
    let solved := c.solve.calculator
    solved.entry.tokens = [.number (NumberText.shown v)] ∧
      ∃ w : Float, (v.isNaN = false → v.toBits ≠ 0x8000000000000000 → w.toBits = v.toBits) ∧
        (v.toBits = 0x8000000000000000 → w.toBits = 0) ∧ (v.isNaN = true → w.isNaN = true) ∧
        ∀ n, (solved.pressAll (List.replicate n .solve)).calculator = solved ∧
          (solved.pressAll (List.replicate n .solve)).outcomes = List.replicate n (.ok w) := by
  intro solved
  have hsolved : solved = ⟨c.settings, .ofNumber (NumberText.shown v)⟩ := Calculator.solve_eq_of_ok h
  obtain ⟨hcalculator, houtcome⟩ := Calculator.press_solve_shown c.settings v
  rw [hsolved]
  refine ⟨rfl, NumberText.read (NumberText.shown v), fun _ hzero => ?_, fun hzero => ?_,
    fun hnan => ?_, Calculator.pressAll_replicate hcalculator houtcome⟩
  · rw [NumberText.read_shown_of_toBits_ne hzero]
  · rw [NumberText.read_shown_of_toBits_eq hzero]
    decide +kernel
  · have hzero : v.toBits ≠ 0x8000000000000000 := fun hzero => by
      rw [Binary64.isNaN_iff, Binary64.index, hzero] at hnan
      exact absurd hnan (by decide)
    rwa [NumberText.read_shown_of_toBits_ne hzero]

/-- `-5 * 0` is negative zero, which is shown as `0`, and solving again answers
zero. -/
theorem solve_again_negativeZero :
    let zero := Key.digit ⟨0, by decide⟩
    let keys := [zero, .operator .minus, .digit ⟨5, by decide⟩, .solve, .operator .times, zero]
    let c := ((Calculator.new .default).pressAll keys).calculator
    let v := Float.ofBits 0x8000000000000000
    c.entry.tokens = [.number "-5", .operator .times, .number "0"] ∧
      c.solve.outcome? = some (.ok v) ∧ c.solve.calculator.entry.tokens = [.number "0"] ∧
      ∃ w : Float, w.toBits = 0 ∧ ∀ n,
        (c.solve.calculator.pressAll (List.replicate n .solve)).outcomes =
          List.replicate n (.ok w) := by
  intro zero keys c v
  have htokens : c.entry.tokens = [.number "-5", .operator .times, .number "0"] := by
    decide +kernel
  have hsolve : c.solve.outcome? = some (.ok v) := by decide +kernel
  have hshown : NumberText.shown v = "0" := by decide +kernel
  have hbits : v.toBits = 0x8000000000000000 := by decide +kernel
  obtain ⟨hsolved, w, -, hzero, -, hagain⟩ := solve_again c v hsolve
  rw [hshown] at hsolved
  exact ⟨htokens, hsolve, hsolved, w, hzero hbits, fun n => (hagain n).2⟩

end Keypad
