/-
Runs that take their keystrokes from the lines of the standard input.

The lines feed one calculator, and its display is printed after each of them,
up to the first line that is not text or not one of keys: nothing of that one
is pressed, and nothing after it is read.

* `isLines_iff`: what the lines of bytes are, said without a scan.
* `byteLines_append`: after a line feed the lines of an input begin anew.
* `runLines_append`: lines of keys press the keys of all of them together.
* `run_input`: what a run without keystrokes in its arguments prints, and with
  which code it exits.
-/
import Mathlib.Data.List.Infix
import Keypad.Proofs.Arguments

namespace Keypad

/-! ## Lines -/

namespace Text

theorem unlines_cons (l : String) (ls : List String) :
    unlines (l :: ls) = l ++ "\n" ++ unlines ls := by
  simp [unlines]

/-- The lines of bytes. A line ends with a line feed and does not contain it,
nor a carriage return right before it; what stands after the last line feed is
a line of its own if it is not empty. -/
inductive IsLines : List UInt8 → List (List UInt8) → Prop
  | nil : IsLines [] []
  | unended {line : List UInt8} : line ≠ [] → 10 ∉ line → IsLines line [line]
  | ended {line rest : List UInt8} {lines : List (List UInt8)} :
      10 ∉ line → line.getLast? ≠ some 13 → IsLines rest lines →
      IsLines (line ++ 10 :: rest) (line :: lines)
  | endedByReturn {line rest : List UInt8} {lines : List (List UInt8)} :
      10 ∉ line → IsLines rest lines → IsLines (line ++ 13 :: 10 :: rest) (line :: lines)

section

variable {α : Type} [DecidableEq α] {cr lf : α}

theorem linesFrom_cons_of_ne {c : α} (h : c ≠ lf) (begun rest : List α) :
    linesFrom cr lf begun (c :: rest) = linesFrom cr lf (c :: begun) rest :=
  if_neg h

theorem linesFrom_of_notMem {line : List α} (h : lf ∉ line) (begun : List α) :
    linesFrom cr lf begun line = linesFrom cr lf (line.reverse ++ begun) [] := by
  induction line generalizing begun with
  | nil => rfl
  | cons c line ih =>
    rw [List.mem_cons, not_or] at h
    obtain ⟨hc, hline⟩ := h
    rw [linesFrom_cons_of_ne (Ne.symm hc), ih hline, List.reverse_cons, List.append_assoc]
    rfl

/-- A line ends at the first line feed. -/
theorem linesFrom_append_cons {line : List α} (h : lf ∉ line) (begun rest : List α) :
    linesFrom cr lf begun (line ++ lf :: rest) =
      (withoutReturn cr (line.reverse ++ begun)).reverse :: linesFrom cr lf [] rest := by
  induction line generalizing begun with
  | nil => exact if_pos rfl
  | cons c line ih =>
    rw [List.mem_cons, not_or] at h
    obtain ⟨hc, hline⟩ := h
    rw [List.cons_append, linesFrom_cons_of_ne (Ne.symm hc), ih hline, List.reverse_cons,
      List.append_assoc]
    rfl

theorem linesFrom_append_of_lf (begun xs rest : List α) :
    linesFrom cr lf begun (xs ++ lf :: rest) =
      linesFrom cr lf begun (xs ++ [lf]) ++ linesFrom cr lf [] rest := by
  induction xs generalizing begun with
  | nil => simp [linesFrom]
  | cons c xs ih =>
    rw [List.cons_append, List.cons_append, linesFrom, linesFrom]
    split
    · rw [ih, List.cons_append]
    · rw [ih]

theorem withoutReturn_reverse {line : List α} (h : line.getLast? ≠ some cr) :
    (withoutReturn cr line.reverse).reverse = line := by
  rcases List.eq_nil_or_concat line with rfl | ⟨before, c, rfl⟩
  · rfl
  · have hc : c ≠ cr := by simpa using h
    simp [withoutReturn, hc]

end

theorem byteLines_of_notMem {line : List UInt8} (hne : line ≠ []) (h : 10 ∉ line) :
    byteLines line = [line] := by
  rw [byteLines, linesFrom_of_notMem h, List.append_nil, linesFrom,
    if_neg (mt List.reverse_eq_nil_iff.mp hne), List.reverse_reverse]

theorem byteLines_append_cons {line : List UInt8} (h : 10 ∉ line) (rest : List UInt8) :
    byteLines (line ++ 10 :: rest) =
      (withoutReturn 13 line.reverse).reverse :: byteLines rest := by
  rw [byteLines, linesFrom_append_cons h, List.append_nil]
  rfl

/-- After a line feed the lines begin anew. -/
theorem byteLines_append {bytes : List UInt8} (h : bytes.getLast? = some 10) (more : List UInt8) :
    byteLines (bytes ++ more) = byteLines bytes ++ byteLines more := by
  obtain ⟨before, rfl⟩ := List.getLast?_eq_some_iff.mp h
  rw [List.append_assoc]
  exact linesFrom_append_of_lf [] before more

theorem byteLines_eq_of_isLines {bytes : List UInt8} {lines : List (List UInt8)}
    (h : IsLines bytes lines) : byteLines bytes = lines := by
  induction h with
  | nil => rfl
  | unended hne hline => exact byteLines_of_notMem hne hline
  | ended hline hlast _ ih =>
    rw [byteLines_append_cons hline, withoutReturn_reverse hlast, ih]
  | @endedByReturn line rest lines hline _ ih =>
    have hreturn : 10 ∉ line ++ [13] := by simpa using hline
    rw [List.append_cons, byteLines_append_cons hreturn, ih]
    simp [withoutReturn]

theorem isLines_byteLines (bytes : List UInt8) : IsLines bytes (byteLines bytes) := by
  induction hn : bytes.length using Nat.strongRecOn generalizing bytes with
  | ind n ih =>
    subst hn
    by_cases hmem : 10 ∈ bytes
    · obtain ⟨line, rest, rfl, hline⟩ := List.eq_append_cons_of_mem hmem
      have hrest : IsLines rest (byteLines rest) :=
        ih rest.length (by simp only [List.length_append, List.length_cons]; omega) rest rfl
      rw [byteLines_append_cons hline]
      by_cases hlast : line.getLast? = some 13
      · obtain ⟨before, rfl⟩ := List.getLast?_eq_some_iff.mp hlast
        have hbefore : 10 ∉ before := fun h => hline (List.mem_append_left _ h)
        simpa [withoutReturn] using IsLines.endedByReturn hbefore hrest
      · rw [withoutReturn_reverse hlast]
        exact .ended hline hlast hrest
    · by_cases hne : bytes = []
      · subst hne
        exact .nil
      · rw [byteLines_of_notMem hne hmem]
        exact .unended hne hmem

/-- **The lines of bytes** are found by `byteLines`. -/
theorem isLines_iff {bytes : List UInt8} {lines : List (List UInt8)} :
    IsLines bytes lines ↔ byteLines bytes = lines :=
  ⟨byteLines_eq_of_isLines, fun h => h ▸ isLines_byteLines bytes⟩

end Text

/-! ## Displays -/

namespace Calculator

/-- What the display shows after each of several lists of keys, when they are
pressed one list after the other. -/
def displays (c : Calculator) (typed : List (List Key)) : List String :=
  typed.inits.tail.map fun lists => (c.pressAll lists.flatten).calculator.display

@[simp] theorem displays_nil (c : Calculator) : c.displays [] = [] := rfl

theorem displays_cons (c : Calculator) (keys : List Key) (typed : List (List Key)) :
    c.displays (keys :: typed) =
      (c.pressAll keys).calculator.display :: (c.pressAll keys).calculator.displays typed := by
  have hinits : typed.inits = [] :: typed.inits.tail := by cases typed <;> simp
  have hlater : ∀ lists : List (List Key), (c.pressAll (keys :: lists).flatten).calculator =
      ((c.pressAll keys).calculator.pressAll lists.flatten).calculator := fun lists => by
    rw [List.flatten_cons, calculator_pressAll_append]
  rw [displays, displays, List.inits_cons, List.tail_cons, List.map_map, hinits, List.map_cons,
    List.tail_cons]
  simp only [Function.comp_def, hlater]
  rfl

end Calculator

namespace CommandLine

/-! ## Lines of keys -/

/-- A line is a text of these keys. -/
def IsKeyLine (line : List UInt8) (keys : List Key) : Prop :=
  ∃ text, Text.ofBytes? line = some text ∧ Key.ofText text = .ok keys

/-- Why a line is not one of keys: it is not text, or it has a character that
is no key. -/
inductive LineFailure (line : List UInt8) : Failure → Prop
  | notText : Text.ofBytes? line = none → LineFailure line (.input .notText)
  | unknownKey {text : String} {e : UnknownKey} : Text.ofBytes? line = some text →
      Key.ofText text = .error e → LineFailure line (.keystrokes text e)

theorem exists_lineFailure {line : List UInt8} (h : ¬ ∃ keys, IsKeyLine line keys) :
    ∃ failure, LineFailure line failure := by
  cases htext : Text.ofBytes? line with
  | none => exact ⟨_, .notText htext⟩
  | some text =>
    cases hkeys : Key.ofText text with
    | ok keys => exact absurd ⟨keys, text, htext, hkeys⟩ h
    | error e => exact ⟨_, .unknownKey htext hkeys⟩

theorem exists_typed {lines : List (List UInt8)} (h : ∀ line ∈ lines, ∃ keys, IsKeyLine line keys) :
    ∃ typed, List.Forall₂ IsKeyLine lines typed := by
  induction lines with
  | nil => exact ⟨[], .nil⟩
  | cons line lines ih =>
    obtain ⟨⟨keys, hkeys⟩, hlines⟩ := List.forall_mem_cons.mp h
    obtain ⟨typed, htyped⟩ := ih hlines
    exact ⟨keys :: typed, .cons hkeys htyped⟩

variable {v : Conventions} {filter : Log.Filter} {line : List UInt8} {lines : List (List UInt8)}

theorem feedLine_of_isKeyLine {keys : List Key} (h : IsKeyLine line keys) (c : Calculator) :
    feedLine filter c line =
      .ok ((c.pressAll keys).calculator, (pressKeys filter c keys).2) := by
  obtain ⟨text, htext, hkeys⟩ := h
  simp only [feedLine, htext, feed_of_ofText hkeys]

theorem feedLine_of_lineFailure {failure : Failure} (h : LineFailure line failure)
    (c : Calculator) : feedLine filter c line = .error failure := by
  cases h with
  | notText htext => simp only [feedLine, htext]
  | unknownKey htext hkeys => simp only [feedLine, feed, htext, hkeys]

/-- **Lines of keys** press the keys of all of them, and the display is printed
after each. -/
theorem runLines_append (c : Calculator) {typed : List (List Key)}
    (h : List.Forall₂ IsKeyLine lines typed) (rest : List (List UInt8)) :
    runLines v filter c (lines ++ rest) =
      .after ⟨Text.unlines (c.displays typed),
          Text.unlines (pressKeys filter c typed.flatten).2⟩
        (runLines v filter (c.pressAll typed.flatten).calculator rest) := by
  induction h generalizing c with
  | nil => simp [Ending.after, pressKeys, Text.unlines]
  | @cons line keys lines typed hline _ ih =>
    rw [List.cons_append, runLines, feedLine_of_isKeyLine hline]
    simp only [ih, Ending.after_after]
    rw [List.flatten_cons, pressKeys_snd_append, Text.unlines_append,
      Calculator.calculator_pressAll_append, Calculator.displays_cons, Text.unlines_cons]

theorem runLines_of_isKeyLine (c : Calculator) {typed : List (List Key)}
    (h : List.Forall₂ IsKeyLine lines typed) :
    runLines v filter c lines = ⟨0, Text.unlines (c.displays typed),
      Text.unlines (pressKeys filter c typed.flatten).2⟩ := by
  rw [← List.append_nil lines, runLines_append c h]
  simp [runLines, Ending.after]

/-- **The first line that is not one of keys** ends the run, whatever comes
after it. -/
theorem runLines_of_lineFailure (c : Calculator) {typed : List (List Key)} {failure : Failure}
    (h : List.Forall₂ IsKeyLine lines typed) (hline : LineFailure line failure)
    (after : List (List UInt8)) :
    runLines v filter c (lines ++ line :: after) = ⟨1, Text.unlines (c.displays typed),
      Text.unlines (pressKeys filter c typed.flatten).2 ++ v.report failure⟩ := by
  rw [runLines_append c h, runLines, feedLine_of_lineFailure hline]
  simp [Ending.after, Ending.ofFailure]

/-- Of lines that are not all of keys one is the first, for a reason. -/
theorem exists_first_lineFailure (h : ¬ ∀ line ∈ lines, ∃ keys, IsKeyLine line keys) :
    ∃ before line after typed failure, lines = before ++ line :: after ∧
      List.Forall₂ IsKeyLine before typed ∧ LineFailure line failure := by
  obtain ⟨before, line, after, hlines, hbefore, hline⟩ := exists_first_not h
  obtain ⟨typed, htyped⟩ := exists_typed hbefore
  obtain ⟨failure, hfailure⟩ := exists_lineFailure hline
  exact ⟨before, line, after, typed, failure, hlines, htyped, hfailure⟩

/-! ## Runs -/

/-- More lines add to what is printed, and change nothing after a line that is
not one of keys. -/
theorem runLines_prefix (v : Conventions) (filter : Log.Filter) (c : Calculator)
    (lines more : List (List UInt8)) :
    (runLines v filter c lines).printed.out.toList <+:
        (runLines v filter c (lines ++ more)).printed.out.toList ∧
      ((¬ ∀ line ∈ lines, ∃ keys, IsKeyLine line keys) →
        runLines v filter c (lines ++ more) = runLines v filter c lines) := by
  by_cases hall : ∀ line ∈ lines, ∃ keys, IsKeyLine line keys
  · obtain ⟨typed, htyped⟩ := exists_typed hall
    refine ⟨?_, fun hnot => absurd hall hnot⟩
    rw [runLines_of_isKeyLine c htyped, runLines_append c htyped, Ending.after,
      String.toList_append]
    exact List.prefix_append ..
  · obtain ⟨before, line, after, typed, failure, rfl, htyped, hfailure⟩ :=
      exists_first_lineFailure hall
    -- What comes after the failing line plays no part, be it `after` alone or
    -- with `more`.
    have hsame : runLines v filter c (before ++ line :: after ++ more) =
        runLines v filter c (before ++ line :: after) := by
      rw [List.append_assoc, List.cons_append, runLines_of_lineFailure c htyped hfailure,
        runLines_of_lineFailure c htyped hfailure]
    rw [hsame]
    exact ⟨List.prefix_rfl, fun _ => rfl⟩

/-- **Keystrokes from the standard input.** Let the arguments be understood and
hold no keystrokes, and the settings be read. If all lines of the input are
lines of keys, the run prints the display after each of them, all pressed on
one calculator, and succeeds. Otherwise it does so up to the first line that is
not text or not one of keys, presses no key of that line or of a later one, and
reports that line. So what is printed only grows with further lines, and once
there has been such a line they change nothing. -/
theorem run_input (v : Conventions) (s : Surroundings) (args : List Argument) (o : Options)
    (settings : Settings) (hargs : v.arguments args = .ok (.run o))
    (hsettings : resolveSettings v.format o s.readFile = .ok settings) (hkeys : o.keys = []) :
    let start := Calculator.new settings
    let lines := Text.byteLines s.input
    let reports := fun typed => (pressKeys (resolveFilter v o s.logVariable) start typed).2
    let ending := fun input => run v { s with input } args
    (∀ ls, Text.IsLines s.input ls ↔ lines = ls) ∧
      ((∀ line ∈ lines, ∃ keys, IsKeyLine line keys) →
        ∃ typed, List.Forall₂ IsKeyLine lines typed ∧
          run v s args = ⟨0, Text.unlines (start.displays typed),
            Text.unlines (reports typed.flatten)⟩) ∧
      ((¬ ∀ line ∈ lines, ∃ keys, IsKeyLine line keys) →
        ∃ before line after typed failure, lines = before ++ line :: after ∧
          List.Forall₂ IsKeyLine before typed ∧ LineFailure line failure ∧
          run v s args = ⟨1, Text.unlines (start.displays typed),
            Text.unlines (reports typed.flatten) ++ v.report failure⟩) ∧
      ∀ first more, first.getLast? = some 10 →
        (ending first).printed.out.toList <+: (ending (first ++ more)).printed.out.toList ∧
          ((¬ ∀ line ∈ Text.byteLines first, ∃ keys, IsKeyLine line keys) →
            ending (first ++ more) = ending first) := by
  intro start lines reports ending
  have hending : ∀ input, ending input =
      runLines v (resolveFilter v o s.logVariable) start (Text.byteLines input) := by
    intro input
    simp only [ending, run, hargs, runOptions, hsettings, if_pos hkeys]
    rfl
  have hrun : run v s args = runLines v (resolveFilter v o s.logVariable) start lines :=
    hending s.input
  refine ⟨fun ls => Text.isLines_iff, fun hall => ?_, fun hfail => ?_,
    fun first more hfirst => ?_⟩
  · obtain ⟨typed, htyped⟩ := exists_typed hall
    exact ⟨typed, htyped, hrun.trans (runLines_of_isKeyLine start htyped)⟩
  · obtain ⟨before, line, after, typed, failure, hlines, htyped, hfailure⟩ :=
      exists_first_lineFailure hfail
    refine ⟨before, line, after, typed, failure, hlines, htyped, hfailure, ?_⟩
    rw [hrun, hlines, runLines_of_lineFailure start htyped hfailure]
  · rw [hending, hending, Text.byteLines_append hfirst]
    exact runLines_prefix v _ start _ _

/-- The third line is not text: `1 + 2` has been shown and solved, and nothing
that follows changes that. -/
theorem run_input_third :
    let good : List UInt8 := [0x31, 0x2B, 0x32, 0x0D, 0x0A, 0x3D, 0x0A]
    let input := good ++ [0xFF, 0x0A]
    let v := Program.conventions
    let args := ["--error-marker", "E"].map Argument.ofText
    let o : Options := ⟨[], none, some "E", false, false⟩
    let s : Surroundings := ⟨fun _ => .error .missing, input, none⟩
    v.arguments args = .ok (.run o) ∧ resolveSettings v.format o s.readFile = .ok ⟨"E", false⟩ ∧
      Text.byteLines input = [[0x31, 0x2B, 0x32], [0x3D], [0xFF]] ∧
      (run v { s with input := good } args).code = 0 ∧ (run v s args).code = 1 ∧
      run v s args = ⟨1, "1 + 2\n3\n",
        "Error: reading stdin\n\nCaused by:\n    stream did not contain valid UTF-8\n"⟩ ∧
      ∀ more, run v { s with input := input ++ more } args = run v s args := by
  intro good input v args o s
  have hargs : v.arguments args = .ok (.run o) := by decide +kernel
  have hsettings : resolveSettings v.format o s.readFile = .ok ⟨"E", false⟩ := by decide +kernel
  have hlines : Text.byteLines input = [[0x31, 0x2B, 0x32], [0x3D], [0xFF]] := by decide
  have hgoodLines : Text.byteLines good = [[0x31, 0x2B, 0x32], [0x3D]] := by decide
  have hfirst : ∃ keys, IsKeyLine [0x31, 0x2B, 0x32] keys :=
    ⟨_, "1+2", by decide +kernel, rfl⟩
  have hsecond : ∃ keys, IsKeyLine [0x3D] keys := ⟨_, "=", by decide +kernel, rfl⟩
  have hthird : ¬ ∃ keys, IsKeyLine [0xFF] keys := by
    rintro ⟨keys, text, htext, -⟩
    have hnone : Text.ofBytes? [0xFF] = none := by decide +kernel
    rw [hnone] at htext
    cases htext
  have hall : ∀ line ∈ Text.byteLines good, ∃ keys, IsKeyLine line keys := by
    rw [hgoodLines]
    simpa using ⟨hfirst, hsecond⟩
  have hfail : ¬ ∀ line ∈ Text.byteLines input, ∃ keys, IsKeyLine line keys := fun h =>
    hthird (h [0xFF] (by simp [hlines]))
  obtain ⟨-, hgood, -, -⟩ := run_input v { s with input := good } args o ⟨"E", false⟩ hargs hsettings rfl
  obtain ⟨-, -, hbad, hmore⟩ := run_input v s args o ⟨"E", false⟩ hargs hsettings rfl
  obtain ⟨_, -, hgoodRun⟩ := hgood hall
  obtain ⟨_, _, _, _, _, -, -, -, hbadRun⟩ := hbad hfail
  have hprinted : run v s args = ⟨1, "1 + 2\n3\n",
      "Error: reading stdin\n\nCaused by:\n    stream did not contain valid UTF-8\n"⟩ := by
    decide +kernel
  exact ⟨hargs, hsettings, hlines, by rw [hgoodRun], by rw [hbadRun], hprinted, fun more =>
    (hmore input more rfl).2 hfail⟩

end CommandLine

end Keypad
