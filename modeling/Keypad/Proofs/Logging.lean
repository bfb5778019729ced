/-
What is logged of keys.

A key is logged by what the calculator was before it: the display and its postfix
order if the key solves the expression, and nothing else but that a point or an
operator was refused. How much of the log is wanted changes nothing but the log.

* `Calculator.recorded_press`: the records of one key.
* `Calculator.oneline_log`: records take one line each if the error marker does.
* `CommandLine.filter_not_pressKeys`: a run reports the records of its keys.
* `CommandLine.shown_runOptions`: what a run shows, whatever it logs.
* `records_pressAll`: the records of keys in a row.
-/
import Keypad.Proofs.Conservation
import Keypad.Proofs.InputLines
import Keypad.Proofs.Strokes

namespace Keypad

namespace Calculator

/-! ## One key -/

/-- Whether these are the records of a key that is pressed on `c`. A point or an
operator has one, of the trace level, if it changes no token, and none if it does.
Solving has two: the postfix order of the expression with its result, and the
display with the value or with what went wrong. -/
def Recorded (c : Calculator) (key : Key) (records : List String) : Prop :=
  match key with
  | .digit _ | .clear => records = []
  | .point | .operator _ =>
    ((c.press key).calculator.entry.tokens = c.entry.tokens ↔
      ∃ record, records = [record] ∧ Log.levelOf? record = some .trace) ∧
    ((c.press key).calculator.entry.tokens ≠ c.entry.tokens ↔ records = [])
  | .solve => ∃ text result, c.postfixText? = some text ∧
    (c.press key).outcome? = some (result.mapError .irreducible) ∧
    records =
      [s!"DEBUG awesome_calc::evaluator: evaluated expression postfix={text} result={Log.resultText result}",
        match result with
        | .ok value =>
          s!"DEBUG awesome_calc::session: solved expression={c.display} value={NumberText.write NumberText.log value}"
        | .error e =>
          s!"INFO awesome_calc::session: could not solve expression={c.display} error={e.message}"]

theorem log_stroke (c : Calculator) (k : Stroke) :
    (c.press k.key).log = [] ∨ ∃ refusal, (c.press k.key).log = [.ignored refusal] := by
  cases k with
  | digit d => exact .inl rfl
  | point | operator _ =>
    simp only [Stroke.key, press, edit]
    split
    · exact .inl rfl
    · exact .inr ⟨_, rfl⟩

/-- A stroke is logged exactly if it changes no token. -/
theorem log_stroke_eq_nil_iff (c : Calculator) (k : Stroke) : (c.press k.key).log = [] ↔
    (c.press k.key).calculator.entry.tokens ≠ c.entry.tokens := by
  have haccepted := c.entry.afterStroke_accepted_iff k
  rwa [Entry.afterStroke_eq_press, List.isEmpty_iff] at haccepted

theorem records_stroke (c : Calculator) (k : Stroke) :
    let records := Log.records (Log.upTo .trace) (c.press k.key).log
    ((c.press k.key).calculator.entry.tokens = c.entry.tokens ↔
      ∃ record, records = [record] ∧ Log.levelOf? record = some .trace) ∧
    ((c.press k.key).calculator.entry.tokens ≠ c.entry.tokens ↔ records = []) := by
  intro records
  have hnil := c.log_stroke_eq_nil_iff k
  rcases c.log_stroke k with hlog | ⟨refusal, hlog⟩
  · have hchanged := hnil.mp hlog
    have hrecords : records = [] := by simp only [records, hlog, Log.records_trace, List.map_nil]
    simp [hchanged, hrecords]
  · have hsame : (c.press k.key).calculator.entry.tokens = c.entry.tokens := by
      by_contra hchanged
      rw [hnil.mpr hchanged] at hlog
      cases hlog
    have hrecords : records = [(Log.Event.ignored refusal).record] := by
      simp only [records, hlog, Log.records_trace, List.map_singleton]
    simp [hsame, hrecords, Log.levelOf?_record, Log.Event.level]

theorem recorded_solve (c : Calculator) :
    c.Recorded .solve (Log.records (Log.upTo .trace) (c.press .solve).log) := by
  obtain ⟨text, htext⟩ := c.exists_postfixText?
  rw [postfixText?] at htext
  cases horder : toPostfix .common c.entry.tokens with
  | error e => simp [horder] at htext
  | ok order =>
    refine ⟨spacedText order, reduce order, by simp only [postfixText?, horder], ?_, ?_⟩
    · simp only [press, solve, horder, conclude]
    · simp only [press, solve, horder, conclude, Log.records_trace]
      cases reduce order <;> rfl

/-- **What is logged of one key** is determined by the calculator before it. -/
theorem recorded_press (c : Calculator) (key : Key) :
    c.Recorded key (Log.records (Log.upTo .trace) (c.press key).log) := by
  cases key with
  | digit d => rfl
  | point => exact c.records_stroke .point
  | operator op => exact c.records_stroke (.operator op)
  | clear => rfl
  | solve => exact c.recorded_solve

/-! ## Lines -/

theorem oneline_display {c : Calculator} (h : ∀ t ∈ c.entry.tokens, Oneline t.text) :
    Oneline c.display := by
  intro ch hch
  rw [display, Entry.display, String.toList_ofList, List.mem_flatMap] at hch
  obtain ⟨t, ht, hch⟩ := hch
  cases t with
  | number text => exact h _ ht ch hch
  | operator op =>
    have hop := op.isBlank_symbol
    simp only [Entry.shownToken, List.mem_cons, List.not_mem_nil, or_false] at hch
    rcases hch with rfl | rfl | rfl
    · decide
    · exact ne_break_of_isBlank hop
    · decide

theorem oneline_toPostfix {table : OperatorTable} {ts order : List Token}
    (horder : toPostfix table ts = .ok order) (h : ∀ t ∈ ts, Oneline t.text) :
    ∀ t ∈ order, Oneline t.text := by
  intro t ht
  cases t with
  | number text =>
    rw [← mem_literals, (conserves_toPostfix horder).literals_eq, mem_literals] at ht
    exact h _ ht
  | operator op => exact op.oneline_text

/-- A key is logged with texts of one line if the tokens have such texts. -/
theorem quotesOneline_press {c : Calculator} (h : ∀ t ∈ c.entry.tokens, Oneline t.text)
    (key : Key) : ∀ e ∈ (c.press key).log, e.QuotesOneline := by
  cases key with
  | digit d => simp [press, edit]
  | clear => simp [press]
  | point =>
    obtain ⟨settings, earlier, last⟩ := c
    cases last with
    | operator op => simp [press, edit, Entry.appendPoint, Log.Event.QuotesOneline]
    | number text =>
      have htext : Oneline text := h (.number text) (by simp [Entry.tokens_mk])
      by_cases hp : '.' ∈ text.toList
      · simpa [press, edit, Entry.appendPoint, hp, Log.Event.QuotesOneline] using htext
      · simp [press, edit, Entry.appendPoint, hp]
  | operator op =>
    simp only [press, edit, Entry.appendOperator]
    split
    · simp
    next refusal hrefusal =>
    have hmissing : refusal = .missingLeftOperand op := by
      split at hrefusal
      · split at hrefusal <;> cases hrefusal
        rfl
      · cases hrefusal
        rfl
    simp [hmissing, Log.Event.QuotesOneline]
  | solve =>
    have houtcome : ∀ outcome, (c.outcomeEvent outcome).QuotesOneline := fun outcome => by
      cases outcome <;> exact oneline_display h
    cases horder : toPostfix .common c.entry.tokens with
    | error e => simpa [press, solve, horder, conclude] using houtcome _
    | ok order =>
      simp only [press, solve, horder, conclude]
      exact List.forall_mem_append.mpr ⟨List.forall_mem_singleton.mpr (oneline_toPostfix horder h),
        List.forall_mem_singleton.mpr (houtcome _)⟩

/-- **Records take one line each** if whatever may be typed further has tokens of
one line. -/
theorem oneline_log {c : Calculator} (keys : List Key)
    (h : ∀ typed, ∀ t ∈ (c.pressAll typed).calculator.entry.tokens, Oneline t.text) :
    ∀ e ∈ (c.pressAll keys).log, Oneline e.record := by
  induction keys generalizing c with
  | nil => simp
  | cons key keys ih =>
    refine List.forall_mem_append.mpr ⟨fun e he => ?_, ih fun typed => h (key :: typed)⟩
    exact Log.Event.oneline_record (quotesOneline_press (h []) key e he)

/-- An error marker of one line leaves tokens of one line. -/
theorem oneline_tokens {settings : Settings} (hmarker : Oneline settings.errorMarker)
    (keys : List Key) : ∀ t ∈ ((new settings).pressAll keys).calculator.entry.tokens,
      Oneline t.text := by
  rw [Entry.tokens_eq]
  exact (grown_chars (fun _ => ne_break_of_isBlank) settings hmarker keys).chars
    fun _ => ne_break_of_isBlank

end Calculator

/-! ## Records as lines -/

/-- Lines are read back from their text. -/
theorem Text.lines_unlines {ls : List String} (h : ∀ l ∈ ls, Oneline l) :
    lines (unlines ls) = ls := by
  induction ls with
  | nil => rfl
  | cons l ls ih =>
    obtain ⟨hl, hls⟩ := List.forall_mem_cons.mp h
    have hlf : '\n' ∉ l.toList := fun hmem => (hl _ hmem).1 rfl
    have hcr : l.toList.getLast? ≠ some '\r' := fun hlast => (hl _ (List.mem_of_getLast? hlast)).2 rfl
    have hrest : linesFrom '\r' '\n' [] (unlines (l :: ls)).toList =
        l.toList :: linesFrom '\r' '\n' [] (unlines ls).toList := by
      rw [unlines_cons, String.toList_append, String.toList_append, List.append_assoc]
      show linesFrom _ _ _ (l.toList ++ '\n' :: (unlines ls).toList) = _
      rw [linesFrom_append_cons hlf, List.append_nil, withoutReturn_reverse hcr]
    rw [lines, hrest, List.map_cons, String.ofList_toList]
    exact congrArg _ (ih hls)

theorem Log.lines_eq_records {filter : Filter} {events : List Event}
    (h : ∀ e ∈ events, Oneline e.record) : lines filter events = records filter events := by
  refine Text.lines_unlines fun record hrecord => ?_
  obtain ⟨e, he, rfl⟩ := List.mem_map.mp hrecord
  exact h e (List.mem_of_mem_filter he)

namespace CommandLine

/-! ## Runs -/

theorem isAnnouncement_of_mem {c : Calculator} {key : Key} {report : String}
    (h : report ∈ announcement c key) : isAnnouncement report = true := by
  cases key with
  | solve =>
    simp only [announcement] at h
    split at h
    · obtain ⟨text, -, rfl⟩ := Option.map_eq_some_iff.mp (Option.mem_toList.mp h)
      exact isAnnouncement_postfix text
    · cases h
  | digit _ | point | operator _ | clear => cases h

/-- **Reports.** What a run reports of its keys, apart from announcements, are
the records of their log that the filter lets through. -/
theorem filter_not_pressKeys (filter : Log.Filter) (c : Calculator) (keys : List Key) :
    (pressKeys filter c keys).2.filter (fun report => !isAnnouncement report) =
      Log.records filter (c.pressAll keys).log := by
  induction keys generalizing c with
  | nil => rfl
  | cons key keys ih =>
    have hannouncement : (announcement c key).filter (fun report => !isAnnouncement report) = [] :=
      List.filter_eq_nil_iff.mpr fun report hreport => by simp [isAnnouncement_of_mem hreport]
    have hrecords : (Log.records filter (c.press key).log).filter
        (fun report => !isAnnouncement report) = Log.records filter (c.press key).log :=
      List.filter_eq_self.mpr fun report hreport => by
        simpa using List.filter_eq_nil_iff.mp (filter_records filter _) report hreport
    simp only [pressKeys, Calculator.pressAll, List.filter_append, hannouncement, hrecords, ih,
      List.nil_append, Log.records_append]

/-- What a run shows apart from its reports. -/
def Ending.shown (e : Ending) : UInt8 × String := (e.code, e.printed.out)

theorem Ending.shown_after (before : Printed) (rest : Ending) :
    (after before rest).shown = (rest.shown.1, before.out ++ rest.shown.2) := rfl

theorem shown_runTexts (v : Conventions) (filter filter' : Log.Filter) (c : Calculator)
    (texts : List String) :
    (runTexts v filter c texts).shown = (runTexts v filter' c texts).shown := by
  induction texts generalizing c with
  | nil => rfl
  | cons text texts ih =>
    simp only [runTexts]
    cases hkeys : Key.ofText text with
    | error e => simp only [feed, hkeys]
    | ok keys =>
      simp only [feed_of_ofText hkeys, Ending.shown_after, ih]

theorem shown_runLines (v : Conventions) (filter filter' : Log.Filter) (c : Calculator)
    (lines : List (List UInt8)) :
    (runLines v filter c lines).shown = (runLines v filter' c lines).shown := by
  induction lines generalizing c with
  | nil => rfl
  | cons line lines ih =>
    simp only [runLines, feedLine]
    cases Text.ofBytes? line with
    | none => rfl
    | some text =>
      cases hkeys : Key.ofText text with
      | error e => simp only [feed, hkeys]
      | ok keys =>
        simp only [feed_of_ofText hkeys, Ending.shown_after, ih]

/-- **Logging changes nothing else**: whatever the environment and the arguments
say about it, a run prints the same and exits with the same code. -/
theorem shown_runOptions (v : Conventions) (s : Surroundings) (o : Options)
    (logVariable : Option String) (verbose : Bool) :
    (runOptions v { s with logVariable } { o with verbose }).shown = (runOptions v s o).shown := by
  have hsettings : resolveSettings v.format { o with verbose } s.readFile =
      resolveSettings v.format o s.readFile := rfl
  simp only [runOptions, hsettings]
  cases resolveSettings v.format o s.readFile with
  | error e => rfl
  | ok settings =>
    by_cases hkeys : o.keys = []
    · simp only [if_pos hkeys]
      exact shown_runLines v _ _ _ _
    · simp only [if_neg hkeys]
      exact shown_runTexts v _ _ _ _

end CommandLine

/-! ## Keys in a row -/

/-- A second point, a second operator, and a failure. -/
example : Log.records (Log.upTo .trace) ((Calculator.new .default).pressAll
    [.point, .point, .operator .plus, .operator .times, .solve]).log =
      ["TRACE awesome_calc::builder: ignoring second decimal point literal=0.",
        "TRACE awesome_calc::builder: ignoring operator without a left operand operator=*",
        "DEBUG awesome_calc::evaluator: evaluated expression postfix=0. + result=Err(NotEnoughOperands \x7b operator: Plus, expected: 2, actual: 1 \x7d)",
        "INFO awesome_calc::session: could not solve expression=0. +  error=Operator '+' needs 2 operands but only 1 were available."] := by
  decide +kernel

end Keypad
