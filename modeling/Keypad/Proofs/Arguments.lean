/-
Runs that take their keystrokes from arguments.

The arguments feed one calculator as if they were one text, up to the first
of them that is not one of keys: nothing of that one is pressed.

* `pressKeys_fst`, `filter_pressKeys`: pressing keys for a run presses them, and
  each `=` among them is announced by the postfix order it solves.
* `runTexts_append`: texts of keys press the keys of their concatenation.
* `run_arguments`: what a run with keystrokes in its arguments prints, and
  with which code it exits.
-/
import Keypad.Proofs.Conventions
import Keypad.Proofs.KeyTexts
import Keypad.Proofs.LogRecords
import Keypad.Proofs.Reordering

namespace Keypad

theorem Text.unlines_append (ls ms : List String) :
    Text.unlines (ls ++ ms) = Text.unlines ls ++ Text.unlines ms := by
  simp [Text.unlines]

namespace Calculator

/-- The calculators on which `=` is pressed, in order. -/
def solvedOn (c : Calculator) : List Key → List Calculator
  | [] => []
  | key :: keys => (if key = .solve then [c] else []) ++ (c.press key).calculator.solvedOn keys

/-- Every expression has a postfix order under the common operators. -/
theorem exists_postfixText? (c : Calculator) : ∃ text, c.postfixText? = some text := by
  obtain ⟨order, horder⟩ := @exists_toPostfix .common c.entry.tokens fun op _ =>
    OperatorTable.isSome_fixity?_common op
  exact ⟨spacedText order, by simp only [postfixText?, horder]⟩

end Calculator

namespace CommandLine

/-! ## Pressing keys -/

theorem pressKeys_fst (filter : Log.Filter) (c : Calculator) (keys : List Key) :
    (pressKeys filter c keys).1 = (c.pressAll keys).calculator := by
  induction keys generalizing c with
  | nil => rfl
  | cons key keys ih => exact ih (c.press key).calculator

theorem pressKeys_snd_append (filter : Log.Filter) (c : Calculator) (keys more : List Key) :
    (pressKeys filter c (keys ++ more)).2 = (pressKeys filter c keys).2 ++
      (pressKeys filter (c.pressAll keys).calculator more).2 := by
  induction keys generalizing c with
  | nil => rfl
  | cons key keys ih =>
    simp only [List.cons_append, pressKeys, ih, List.append_assoc]
    rfl

/-- Whether a report announces an expression that is to be solved. -/
def isAnnouncement (report : String) : Bool := "postfix: ".toList.isPrefixOf report.toList

theorem isAnnouncement_postfix (text : String) : isAnnouncement s!"postfix: {text}" = true := by
  rw [isAnnouncement, List.isPrefixOf_iff_prefix, String.toList_append]
  exact List.prefix_append _ _

theorem isAnnouncement_of_head? {report : String} {c : Char} (h : report.toList.head? = some c)
    (hc : c ≠ 'p') : isAnnouncement report = false := by
  obtain ⟨cs, hcs⟩ := List.head?_eq_some_iff.mp h
  rw [isAnnouncement, hcs]
  exact Bool.and_eq_false_imp.mpr fun heq => absurd (beq_iff_eq.mp heq).symm hc

/-- A record begins with its level. -/
theorem head?_record (e : Log.Event) : ∃ c, e.record.toList.head? = some c ∧ c ≠ 'p' := by
  obtain ⟨rest, hrest⟩ := Log.prefix_record e
  rw [← hrest]
  cases e.level <;> exact ⟨_, rfl, by decide⟩

theorem filter_records (filter : Log.Filter) (events : List Log.Event) :
    (Log.records filter events).filter isAnnouncement = [] := by
  rw [List.filter_eq_nil_iff]
  intro report hreport
  obtain ⟨e, -, rfl⟩ := List.mem_map.mp hreport
  obtain ⟨c, hhead, hc⟩ := head?_record e
  rw [isAnnouncement_of_head? hhead hc]
  decide

/-- **Announcements.** Where the settings ask for it, every `=` among the keys
is announced by the postfix order of what it solves, and nothing else is. -/
theorem filter_pressKeys (filter : Log.Filter) {c : Calculator}
    (h : c.settings.showPostfix = true) (keys : List Key) :
    ((pressKeys filter c keys).2.filter isAnnouncement).map some =
      (c.solvedOn keys).map fun d => d.postfixText?.map fun text => s!"postfix: {text}" := by
  induction keys generalizing c with
  | nil => rfl
  | cons key keys ih =>
    have hrest := @ih (c.press key).calculator (by rw [c.settings_press, h])
    have hkey : ((announcement c key).filter isAnnouncement).map some =
        (if key = .solve then [c] else []).map
          fun d => d.postfixText?.map fun text => s!"postfix: {text}" := by
      cases key with
      | solve =>
        obtain ⟨text, htext⟩ := c.exists_postfixText?
        simp [announcement, h, htext, isAnnouncement_postfix]
      | digit _ | point | operator _ | clear => rfl
    simp only [pressKeys, Calculator.solvedOn, List.filter_append, List.map_append, hrest, hkey,
      filter_records, List.append_nil]

/-! ## Texts -/

theorem Ending.after_after (before before' : Printed) (rest : Ending) :
    Ending.after before (.after before' rest) =
      .after ⟨before.out ++ before'.out, before.err ++ before'.err⟩ rest := by
  simp [Ending.after, String.append_assoc]

theorem feed_of_ofText {filter : Log.Filter} {text : String} {keys : List Key}
    (h : Key.ofText text = .ok keys) (c : Calculator) :
    feed filter c text = .ok ((c.pressAll keys).calculator, (pressKeys filter c keys).2) := by
  simp only [feed, h, ← pressKeys_fst filter]

/-- **Texts of keys press the keys of their concatenation.** -/
theorem runTexts_append (v : Conventions) (filter : Log.Filter) (c : Calculator) {texts : List String}
    (h : ∀ text ∈ texts, ∃ keys, Key.ofText text = .ok keys) (rest : List String) :
    ∃ keys, Key.ofText (String.join texts) = .ok keys ∧
      runTexts v filter c (texts ++ rest) =
        .after ⟨"", Text.unlines (pressKeys filter c keys).2⟩
          (runTexts v filter (c.pressAll keys).calculator rest) := by
  induction texts generalizing c with
  | nil => exact ⟨[], rfl, by simp [Ending.after, pressKeys, Text.unlines]⟩
  | cons text texts ih =>
    obtain ⟨⟨keys, hkeys⟩, htexts⟩ := List.forall_mem_cons.mp h
    obtain ⟨more, hmore, hrun⟩ := ih (c.pressAll keys).calculator htexts
    refine ⟨keys ++ more, ?_, ?_⟩
    · rw [String.join_cons]
      exact Key.ofText_append hkeys hmore
    · rw [List.cons_append, runTexts, feed_of_ofText hkeys]
      simp only [hrun, Ending.after_after]
      rw [pressKeys_snd_append, Text.unlines_append, Calculator.calculator_pressAll_append]
      rfl

/-- Of elements that do not all have a property one without it is the first. -/
theorem exists_first_not {α : Type} {P : α → Prop} {xs : List α} (h : ¬ ∀ x ∈ xs, P x) :
    ∃ before x after, xs = before ++ x :: after ∧ (∀ y ∈ before, P y) ∧ ¬ P x := by
  induction xs with
  | nil => exact absurd (by simp) h
  | cons x xs ih =>
    by_cases hx : P x
    · have hxs : ¬ ∀ y ∈ xs, P y := fun hall => h (List.forall_mem_cons.mpr ⟨hx, hall⟩)
      obtain ⟨before, y, after, rfl, hbefore, hy⟩ := ih hxs
      exact ⟨x :: before, y, after, rfl, List.forall_mem_cons.mpr ⟨hx, hbefore⟩, hy⟩
    · exact ⟨[], x, xs, rfl, by simp, hx⟩

theorem exists_first_failing {texts : List String}
    (h : ¬ ∀ text ∈ texts, ∃ keys, Key.ofText text = .ok keys) :
    ∃ before text after e, texts = before ++ text :: after ∧
      (∀ t ∈ before, ∃ keys, Key.ofText t = .ok keys) ∧ Key.ofText text = .error e := by
  obtain ⟨before, text, after, htexts, hbefore, htext⟩ := exists_first_not h
  cases hkeys : Key.ofText text with
  | error e => exact ⟨before, text, after, e, htexts, hbefore, hkeys⟩
  | ok keys => exact absurd ⟨keys, hkeys⟩ htext

/-! ## Runs -/

/-- The message about a character that is no key takes one line. -/
theorem oneline_unknownKey {text : String} {e : UnknownKey} (h : Key.ofText text = .error e) :
    Oneline e.message := by
  obtain ⟨-, -, -, -, hchar, -⟩ := Key.ofText_eq_error_iff.mp h
  have hone : Oneline (toString e.char) :=
    .ofList (by simpa using ne_break_of_isBlank (Key.not_isKeyChar_iff.mp hchar).1)
  exact .quote (.quote (.ofList rfl) hone (.ofList rfl)) (.nat e.position) (.ofList rfl)

/-- The report of a text that is not one of keys names the text, and its first
character that is none with the position of it. -/
theorem infix_report_keystrokes {v : Conventions} (hv : v.TellsAll) {text : String}
    {e : UnknownKey} (h : Key.ofText text = .error e) :
    s!"in keystrokes {Text.quoted text}".toList <:+: (v.report (.keystrokes text e)).toList ∧
      s!"Unknown key '{e.char}' at position {e.position}.".toList <:+:
        (v.report (.keystrokes text e)).toList := by
  let f := Failure.keystrokes text e
  obtain ⟨hcontext, hcause⟩ := hv f.context f.cause
  have hlf : '\n' ∉ f.cause.toList := fun hmem => (oneline_unknownKey h _ hmem).1 rfl
  have hreport : (v.describe f.context f.cause).toList <:+: (v.report f).toList := by
    show _ <:+: ("Error: " ++ v.describe f.context f.cause ++ "\n").toList
    rw [String.toList_append, String.toList_append]
    exact List.infix_append _ _ _
  exact ⟨hcontext.trans hreport, (hcause hlf).trans hreport⟩

/-- **Keystrokes in arguments.** Let the arguments be understood, the settings
be read and keystrokes be given. If all of them are texts of keys, the run
prints the display after the keys of all of them together. Otherwise it prints
no display and reports the first of them that is not one, after it has pressed
the keys of those before it; the report names that text and the position in it.
What else goes to the standard error are the reports of the keys pressed, each
on a line: where the settings ask for it, every `=` among the keys is announced
by the postfix order that it solves. The standard input plays no part. -/
theorem run_arguments (v : Conventions) (hv : v.TellsAll) (s : Surroundings)
    (args : List Argument) (o : Options) (settings : Settings)
    (hargs : v.arguments args = .ok (.run o))
    (hsettings : resolveSettings v.format o s.readFile = .ok settings) (hkeys : o.keys ≠ []) :
    let start := Calculator.new settings
    let reports := fun typed => (pressKeys (resolveFilter v o s.logVariable) start typed).2
    ((∀ text ∈ o.keys, ∃ keys, Key.ofText text = .ok keys) →
      ∃ typed, Key.ofText (String.join o.keys) = .ok typed ∧
        run v s args = ⟨0, (start.pressAll typed).calculator.display ++ "\n",
          Text.unlines (reports typed)⟩) ∧
    ((¬ ∀ text ∈ o.keys, ∃ keys, Key.ofText text = .ok keys) →
      ∃ before text after e typed, o.keys = before ++ text :: after ∧
        Key.ofText (String.join before) = .ok typed ∧ Key.ofText text = .error e ∧
        (∃ front back, text.toList = front ++ e.char :: back ∧ front.length = e.position) ∧
        s!"in keystrokes {Text.quoted text}".toList <:+: (v.report (.keystrokes text e)).toList ∧
        s!"Unknown key '{e.char}' at position {e.position}.".toList <:+:
          (v.report (.keystrokes text e)).toList ∧
        run v s args = ⟨1, "", Text.unlines (reports typed) ++ v.report (.keystrokes text e)⟩) ∧
    (settings.showPostfix = true → ∀ typed,
      ((reports typed).filter isAnnouncement).map some =
        (start.solvedOn typed).map fun c => c.postfixText?.map fun text => s!"postfix: {text}") ∧
    ∀ input, run v { s with input } args = run v s args := by
  intro start reports
  have hinput : ∀ input, run v { s with input } args =
      runTexts v (resolveFilter v o s.logVariable) start o.keys := by
    intro input
    simp only [run, hargs, runOptions, hsettings, if_neg hkeys]
    rfl
  have hrun : run v s args = runTexts v (resolveFilter v o s.logVariable) start o.keys :=
    hinput s.input
  refine ⟨fun hall => ?_, fun hfail => ?_, fun hshow typed => filter_pressKeys _ hshow typed,
    fun input => (hinput input).trans hrun.symm⟩
  · obtain ⟨typed, htyped, htexts⟩ :=
      runTexts_append v (resolveFilter v o s.logVariable) start hall []
    refine ⟨typed, htyped, ?_⟩
    rw [hrun, ← List.append_nil o.keys, htexts]
    simp [runTexts, Ending.after, reports]
  · obtain ⟨before, text, after, e, hsplit, hbefore, he⟩ := exists_first_failing hfail
    obtain ⟨typed, htyped, htexts⟩ :=
      runTexts_append v (resolveFilter v o s.logVariable) start hbefore (text :: after)
    obtain ⟨front, back, htext, -, -, hposition⟩ := Key.ofText_eq_error_iff.mp he
    obtain ⟨hnamed, hplace⟩ := infix_report_keystrokes hv he
    refine ⟨before, text, after, e, typed, hsplit, htyped, he, ⟨front, back, htext, hposition.symm⟩,
      hnamed, hplace, ?_⟩
    rw [hrun, hsplit, htexts]
    simp [runTexts, feed, he, Ending.after, Ending.ofFailure, reports]

/-- The third argument is not one of keys: `1 + 2` has been solved, the
display is not printed, and `3` is not pressed. -/
theorem run_arguments_third :
    let v := Program.conventions
    let s : Surroundings := ⟨fun _ => .error .missing, [], none⟩
    let args := ["--show-postfix", "1+", "2=*", "3x="].map Argument.ofText
    let o : Options := ⟨["1+", "2=*", "3x="], none, none, true, false⟩
    v.TellsAll ∧ v.arguments args = .ok (.run o) ∧
      resolveSettings v.format o s.readFile = .ok { Settings.default with showPostfix := true } ∧
      run v s args = ⟨1, "", "postfix: 1 2 +\nError: in keystrokes \"3x=\"\n\nCaused by:\n    Unknown key 'x' at position 1.\n"⟩ := by
  intro v s args o
  have hargs : v.arguments args = .ok (.run o) := by decide +kernel
  have hsettings : resolveSettings v.format o s.readFile =
      .ok { Settings.default with showPostfix := true } := by decide +kernel
  have hfirst : Key.ofText "1+" = .ok [.digit ⟨1, by decide⟩, .operator .plus] := by decide
  have hsecond : Key.ofText "2=*" = .ok [.digit ⟨2, by decide⟩, .solve, .operator .times] := by
    decide
  have hthird : Key.ofText "3x=" = .error ⟨'x', 1⟩ := by decide
  have hfail : ¬ ∀ text ∈ o.keys, ∃ keys, Key.ofText text = .ok keys := fun hall => by
    obtain ⟨keys, hkeys⟩ := hall "3x=" (by simp [o])
    rw [hthird] at hkeys
    cases hkeys
  obtain ⟨before, text, after, e, typed, hsplit, htyped, he, -, -, -, hrun⟩ :=
    (run_arguments v Program.tellsAll_conventions s args o _ hargs hsettings (by simp [o])).2.1 hfail
  -- The first two arguments are texts of keys, so the failing one is the third.
  obtain ⟨rfl, rfl⟩ : before = ["1+", "2=*"] ∧ text = "3x=" := by
    rcases before with _ | ⟨b, _ | ⟨b', rest⟩⟩
    · obtain ⟨rfl, -⟩ := List.cons.inj hsplit
      rw [hfirst] at he
      cases he
    · obtain ⟨-, htail⟩ := List.cons.inj hsplit
      obtain ⟨rfl, -⟩ := List.cons.inj htail
      rw [hsecond] at he
      cases he
    · obtain ⟨rfl, htail⟩ := List.cons.inj hsplit
      obtain ⟨rfl, hlast⟩ := List.cons.inj htail
      cases rest with
      | nil => exact ⟨rfl, (List.cons.inj hlast).1.symm⟩
      | cons t ts => exact absurd (List.cons.inj hlast).2 (by simp)
  rw [hthird] at he
  cases he
  have hjoin : Key.ofText (String.join ["1+", "2=*"]) = _ := Key.ofText_append hfirst hsecond
  rw [htyped] at hjoin
  cases hjoin
  refine ⟨Program.tellsAll_conventions, hargs, hsettings, hrun.trans ?_⟩
  decide +kernel

end CommandLine

end Keypad
