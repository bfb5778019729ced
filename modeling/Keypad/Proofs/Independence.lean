/-
What the settings have no influence on.

Only a failed solve puts a text from the settings into the expression. Until
then, and again after the next clear, the settings play no part.

* `press_congr`: on the same expression a key answers the same under all
  settings, and if it does not fail it leaves the same expression.
* `pressAll_congr`: so do keys none of which fails.
* `pressAll_settings`: runs under two settings agree wherever, under the first
  of them, nothing has failed since the last clear.
-/
import Keypad.Proofs.Keystrokes

namespace Keypad

namespace Calculator

variable {c c' : Calculator}

theorem edit_congr (h : c'.entry = c.entry) (edited : Except Refusal Entry) :
    (c'.edit edited).outcome? = (c.edit edited).outcome? ∧
      (c'.edit edited).calculator.entry = (c.edit edited).calculator.entry := by
  cases edited with
  | ok e => exact ⟨rfl, rfl⟩
  | error refusal => exact ⟨rfl, h⟩

/-- **One key** does the same to the same expression under all settings. Only
the expression that it leaves when it fails to solve one may differ. -/
theorem press_congr (h : c'.entry = c.entry) (key : Key) :
    (c'.press key).outcome? = (c.press key).outcome? ∧
      ((∀ outcome ∈ (c.press key).outcome?, ∃ x, outcome = .ok x) →
        (c'.press key).calculator.entry = (c.press key).calculator.entry) := by
  cases key with
  | digit _ | point | operator _ =>
    simp only [press, h]
    exact ⟨(edit_congr h _).1, fun _ => (edit_congr h _).2⟩
  | clear => exact ⟨rfl, fun _ => rfl⟩
  | solve =>
    -- The settings come in only by the marker that a failure leaves.
    obtain ⟨log, hsolve⟩ := c.exists_solve_eq
    obtain ⟨log', hsolve'⟩ := c'.exists_solve_eq
    simp only [press, hsolve, hsolve', h]
    refine ⟨rfl, fun hok => ?_⟩
    obtain ⟨x, hx⟩ := hok _ rfl
    rw [hx]
    rfl

/-- **Keys none of which fails** do the same to the same expression under all
settings. -/
theorem pressAll_congr (h : c'.entry = c.entry) {keys : List Key}
    (hok : ∀ outcome ∈ (c.pressAll keys).outcomes, ∃ x, outcome = .ok x) :
    (c'.pressAll keys).outcomes = (c.pressAll keys).outcomes ∧
      (c'.pressAll keys).calculator.entry = (c.pressAll keys).calculator.entry := by
  induction keys generalizing c c' with
  | nil => exact ⟨rfl, h⟩
  | cons key keys ih =>
    obtain ⟨hkey, hkeys⟩ := List.forall_mem_append.mp hok
    obtain ⟨houtcome, hentry⟩ := press_congr h key
    obtain ⟨houtcomes, hlast⟩ := ih (hentry (by simpa using hkey)) hkeys
    refine ⟨?_, hlast⟩
    simp only [pressAll, houtcome, houtcomes]

end Calculator

/-- Under these settings no solve has failed since the last clear among the
keys, or since the start if there is none. -/
def UnfailedSinceClear (settings : Settings) (keys : List Key) : Prop :=
  ∃ before after, keys = before ++ after ∧ (before = [] ∨ before.getLast? = some .clear) ∧
    .clear ∉ after ∧
    ∀ outcome ∈ (((Calculator.new settings).pressAll before).calculator.pressAll after).outcomes,
      ∃ x, outcome = .ok x

namespace Calculator

theorem pressAll_concat_clear (c : Calculator) (keys : List Key) :
    (c.pressAll (keys ++ [.clear])).calculator = (c.pressAll keys).calculator.clear := by
  rw [calculator_pressAll_append]
  rfl

/-- At the start and after a clear nothing is typed. -/
theorem entry_pressAll_clear (settings : Settings) {keys : List Key}
    (h : keys = [] ∨ keys.getLast? = some .clear) :
    ((new settings).pressAll keys).calculator.entry = .fresh := by
  rcases h with rfl | hlast
  · rfl
  · obtain ⟨before, rfl⟩ := List.getLast?_eq_some_iff.mp hlast
    rw [pressAll_concat_clear]
    rfl

/-- Where nothing has failed since the last clear, other settings would have
led to the same expression. -/
theorem entry_pressAll_of_unfailed {settings : Settings} {keys : List Key}
    (h : UnfailedSinceClear settings keys) (settings' : Settings) :
    ((new settings').pressAll keys).calculator.entry =
      ((new settings).pressAll keys).calculator.entry := by
  obtain ⟨before, after, rfl, hbefore, -, hok⟩ := h
  have hstart : ((new settings').pressAll before).calculator.entry =
      ((new settings).pressAll before).calculator.entry := by
    rw [entry_pressAll_clear settings' hbefore, entry_pressAll_clear settings hbefore]
  rw [calculator_pressAll_append, calculator_pressAll_append]
  exact (pressAll_congr hstart hok).2

end Calculator

/-- **Settings have no influence before a failure.** Let the same keys be
pressed under two settings. Wherever, under the first of them, no solve has
failed since the last clear, both runs have the same expression, show the same
and would answer the same to the next solve, be it a value or an error. So from
any clear on, whatever came before it, they agree until a solve fails. -/
theorem pressAll_settings (settings settings' : Settings) (keys : List Key) :
    let run := (Calculator.new settings).pressAll keys
    let run' := (Calculator.new settings').pressAll keys
    (UnfailedSinceClear settings keys →
      run'.calculator.entry.tokens = run.calculator.entry.tokens ∧
        run'.calculator.display = run.calculator.display ∧
        run'.calculator.solve.outcome? = run.calculator.solve.outcome?) ∧
      ∀ more, (∀ outcome ∈ (run.calculator.clear.pressAll more).outcomes, ∃ x, outcome = .ok x) →
        (run'.calculator.clear.pressAll more).outcomes =
            (run.calculator.clear.pressAll more).outcomes ∧
          (run'.calculator.clear.pressAll more).calculator.entry.tokens =
            (run.calculator.clear.pressAll more).calculator.entry.tokens := by
  intro run run'
  refine ⟨fun h => ?_, fun more hok => ?_⟩
  · have hentry : run'.calculator.entry = run.calculator.entry :=
      Calculator.entry_pressAll_of_unfailed h settings'
    have hsolve := (Calculator.press_congr hentry .solve).1
    exact ⟨by rw [hentry], by rw [Calculator.display, Calculator.display, hentry], hsolve⟩
  · have hclear : run'.calculator.clear.entry = run.calculator.clear.entry := rfl
    obtain ⟨houtcomes, hentry⟩ := Calculator.pressAll_congr hclear hok
    exact ⟨houtcomes, by rw [hentry]⟩

/-- `1 + =` shows `ERROR` under the one settings and `7` under the others, and
after `* 2 =` the displays differ too. After a clear they agree again, and the
next solve fails in the same way. -/
theorem pressAll_settings_clear :
    let one := Key.digit ⟨1, by decide⟩
    let two := Key.digit ⟨2, by decide⟩
    let failed := [one, .operator .plus, .solve, .operator .times, two, .solve]
    let after := [two, .operator .times, two, .solve, .operator .plus]
    let keys := failed ++ [Key.clear] ++ after
    let settings' : Settings := ⟨"7", true⟩
    ((Calculator.new .default).pressAll failed).calculator.display = "NaN" ∧
      ((Calculator.new settings').pressAll failed).calculator.display = "14" ∧
      UnfailedSinceClear .default keys ∧
      ((Calculator.new settings').pressAll keys).calculator.entry.tokens =
        [.number "4", .operator .plus] ∧
      ((Calculator.new settings').pressAll keys).calculator.solve.outcome? =
        some (.error (.irreducible (.missingOperands .plus ⟨2, 1⟩))) ∧
      (((Calculator.new settings').pressAll failed).calculator.clear.pressAll after).outcomes =
        [.ok (Float.ofBits 0x4010000000000000)] := by
  intro one two failed after keys settings'
  have hfailed : ((Calculator.new .default).pressAll failed).calculator.display = "NaN" := by
    decide +kernel
  have hfailed' : ((Calculator.new settings').pressAll failed).calculator.display = "14" := by
    decide +kernel
  have hafter : (((Calculator.new .default).pressAll failed).calculator.clear.pressAll
      after).outcomes = [.ok (Float.ofBits 0x4010000000000000)] := by
    decide +kernel
  have hok : ∀ outcome ∈ (((Calculator.new .default).pressAll failed).calculator.clear.pressAll
      after).outcomes, ∃ x, outcome = .ok x := by
    simp [hafter]
  have hunfailed : UnfailedSinceClear .default keys := by
    refine ⟨failed ++ [.clear], after, rfl, .inr rfl, by decide, ?_⟩
    rwa [Calculator.pressAll_concat_clear]
  have htokens : ((Calculator.new .default).pressAll keys).calculator.entry.tokens =
      [.number "4", .operator .plus] := by
    decide +kernel
  have hsolve : ((Calculator.new .default).pressAll keys).calculator.solve.outcome? =
      some (.error (.irreducible (.missingOperands .plus ⟨2, 1⟩))) := by
    decide +kernel
  obtain ⟨hsame, -, houtcome⟩ := (pressAll_settings .default settings' keys).1 hunfailed
  have hclear := (pressAll_settings .default settings' failed).2 after hok
  exact ⟨hfailed, hfailed', hunfailed, hsame.trans htokens, houtcome.trans hsolve,
    hclear.1.trans hafter⟩

end Keypad
