/-
What becomes of the error marker.

A failed solve leaves the error marker in the place of the expression, as a
literal like any other. Solving it again reads it like any other: as NaN if it
begins with no numeral or with one that spells NaN, and else as a number.

* `isNaN_read_iff`: the texts that are read as NaN.
* `shown_eq_nan_iff`: NaN is shown as no other double is.
* `solve_marker`: solving after a failure.
-/
import Keypad.Proofs.SolvingAgain
import Keypad.Proofs.Values

namespace Keypad

open Binary64 (infinity)

/-! ## Texts that are read as NaN -/

theorem Decimal.index_le_infinity (d : Decimal) : d.index ≤ infinity := by
  rw [d.index_eq_nearestIndex]
  exact Nat.min_le_right _ _

namespace NumberText

/-- **Read as NaN** is a text whose longest initial part that is a numeral
spells NaN, or that has none. -/
theorem isNaN_read_iff (text : String) : (read text).isNaN = true ↔
    ∀ n, Numeral.leading? text.toList = some n → n.magnitude = .nan := by
  have hnan : Binary64.nan.isNaN = true := by decide +kernel
  have hindex : ∀ (negative : Bool) {n : Nat}, n ≤ infinity →
      (Binary64.ofIndex negative n).isNaN ≠ true := by
    intro negative n hn
    rw [ne_eq, Binary64.isNaN_iff, Binary64.index_ofIndex negative hn, Nat.not_lt]
    exact hn
  rw [read, readChars]
  cases Numeral.leading? text.toList with
  | none => simpa using hnan
  | some n =>
    obtain ⟨negative, magnitude⟩ := n
    cases magnitude with
    | decimal d => simpa [Numeral.value] using hindex negative d.index_le_infinity
    | infinity => simpa [Numeral.value] using hindex negative (Nat.le_refl infinity)
    | nan => simpa [Numeral.value] using hnan

theorem shown_eq_nan_iff (x : Float) : shown x = "NaN" ↔ x.isNaN = true := by
  rw [Binary64.isNaN_iff]
  constructor
  · intro hshown
    -- What is shown is read as a double of the same index.
    by_contra hindex
    have hread := read_shown_eq x
    rw [hshown, if_neg hindex] at hread
    have hnan : (read "NaN").isNaN = true := by decide +kernel
    rw [hread, Binary64.isNaN_iff, Binary64.index_ofIndex _ (Nat.not_lt.mp hindex)] at hnan
    exact hindex hnan
  · intro hindex
    rw [shown, write, writeChars, if_pos hindex]

end NumberText

/-! ## Solving after a failure -/

theorem Entry.display_ofNumber (text : String) : (ofNumber text).display = text := by
  simp [display, shownToken]

theorem Calculator.solve_eq_of_error {c : Calculator} {e : EvaluationError}
    (h : c.solve.outcome? = some (.error e)) :
    c.solve.calculator = ⟨c.settings, .ofNumber c.settings.errorMarker⟩ := by
  obtain ⟨log, hsolve⟩ := c.exists_solve_eq
  rw [c.outcome?_solve, Option.some.injEq] at h
  rw [hsolve, h]
  rfl

/-- **Solving after a failure** answers what the error marker is read as, and
shows it. That is NaN exactly if the marker begins with no numeral or if the
longest one that it begins with spells NaN. -/
theorem solve_marker (settings : Settings) (keys : List Key) (e : EvaluationError)
    (h : ((Calculator.new settings).pressAll keys).calculator.solve.outcome? = some (.error e)) :
    let failed := ((Calculator.new settings).pressAll keys).calculator.solve.calculator
    let v := NumberText.read settings.errorMarker
    failed.entry.tokens = [.number settings.errorMarker] ∧
      failed.solve.outcome? = some (.ok v) ∧ failed.solve.calculator.display = NumberText.shown v ∧
      (v.isNaN = true ↔
        ∀ n, Numeral.leading? settings.errorMarker.toList = some n → n.magnitude = .nan) ∧
      (NumberText.shown v = "NaN" ↔ v.isNaN = true) := by
  intro failed v
  have hfailed : failed = ⟨settings, .ofNumber settings.errorMarker⟩ := by
    have hmarker := Calculator.solve_eq_of_error h
    rwa [(Calculator.grown_pressAll settings keys).1] at hmarker
  have houtcome : failed.solve.outcome? = some (.ok v) := by
    rw [hfailed, Calculator.outcome?_solve, Entry.tokens_ofNumber, evaluate_literal]
  have hdisplay : failed.solve.calculator.display = NumberText.shown v := by
    rw [Calculator.solve_eq_of_ok houtcome]
    exact Entry.display_ofNumber _
  exact ⟨by rw [hfailed, Entry.tokens_ofNumber], houtcome, hdisplay,
    NumberText.isNaN_read_iff _, NumberText.shown_eq_nan_iff v⟩

/-- After `1 + =` the markers `nan?` and `.e5` are solved to NaN: the one spells
it, and the other has no digit before its exponent. -/
theorem solve_marker_nan :
    let dangling : String → Calculator := fun marker =>
      ((Calculator.new ⟨marker, false⟩).pressAll
        [.digit ⟨1, by decide⟩, .operator .plus]).calculator
    (∀ marker, (dangling marker).solve.outcome? =
      some (.error (.irreducible (.missingOperands .plus ⟨2, 1⟩)))) ∧
      (dangling "nan?").solve.calculator.solve.calculator.display = "NaN" ∧
      (dangling ".e5").solve.calculator.solve.calculator.display = "NaN" := by
  intro dangling
  have hfails : ∀ marker, (dangling marker).solve.outcome? =
      some (.error (.irreducible (.missingOperands .plus ⟨2, 1⟩))) := fun _ => rfl
  have hnan : Numeral.leading? "nan?".toList = some ⟨false, .nan⟩ := by decide
  have hnone : Numeral.leading? ".e5".toList = none := by decide
  refine ⟨hfails, ?_, ?_⟩
  · obtain ⟨-, -, hdisplay, hread, hshown⟩ := solve_marker ⟨"nan?", false⟩ _ _ (hfails "nan?")
    rw [hdisplay, hshown, hread]
    intro n hn
    rw [hnan, Option.some.injEq] at hn
    rw [← hn]
  · obtain ⟨-, -, hdisplay, hread, hshown⟩ := solve_marker ⟨".e5", false⟩ _ _ (hfails ".e5")
    rw [hdisplay, hshown, hread]
    intro n hn
    rw [hnone] at hn
    cases hn

/-- **A failure can turn into a number.** Under the error marker `5`, solving
again after `1 + =` answers five. -/
theorem not_forall_solve_failed_nan :
    ¬ ∀ (settings : Settings) (keys : List Key),
      let c := ((Calculator.new settings).pressAll keys).calculator
      (∃ e, c.solve.outcome? = some (.error e)) →
        ∃ v, c.solve.calculator.solve.outcome? = some (.ok v) ∧ v.isNaN = true ∧
          c.solve.calculator.solve.calculator.display = "NaN" := by
  intro h
  obtain ⟨v, -, -, hdisplay⟩ :=
    h ⟨"5", false⟩ [.digit ⟨1, by decide⟩, .operator .plus] ⟨_, rfl⟩
  revert hdisplay
  decide +kernel

end Keypad
