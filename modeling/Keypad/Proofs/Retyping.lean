/-
Typing what the display shows.

The display shows an expression with the characters of its keys and spaces
between them, unless it begins with a result or error marker that cannot be
typed. No key of it is ignored or changed when it is pressed again.

* `pressAll_literal`: the characters of a literal type that literal.
* `Grown.pressAll_shown`: by induction on how an entry has grown, its
  characters type it.
* `retype_display`: the display, typed into a new calculator, gives the entry
  again.
-/
import Keypad.Proofs.KeyTexts
import Keypad.Proofs.Keystrokes

namespace Keypad

open Key (IsKeyText)

/-! ## Literals -/

theorem Digits.isKeyText {cs : List Char} (h : Digits cs) : IsKeyText cs := by
  intro c hc
  obtain ⟨d, rfl⟩ := Digit.exists_toChar_eq (h c hc)
  exact .inr ⟨_, Key.ofChar?_toChar d⟩

theorem IsLiteral.isKeyText {cs : List Char} (h : IsLiteral cs) : IsKeyText cs := by
  obtain ⟨ds, -, hds, rfl | ⟨fs, hfs, rfl⟩⟩ := h
  · exact hds.isKeyText
  · exact Key.isKeyText_append.mpr
      ⟨hds.isKeyText, List.forall_mem_cons.mpr ⟨.inr ⟨_, Key.ofChar?_point⟩, hfs.isKeyText⟩⟩

theorem ofList_push (cs : List Char) (c : Char) :
    (String.ofList cs).push c = String.ofList (cs ++ [c]) := by
  simp

namespace Calculator

variable {settings : Settings} {earlier : List Token} {start : Calculator}

/-- Digits extend a literal by their characters. -/
theorem pressAll_digits {ds : List Char} (h : Digits ds) (cs : List Char) :
    (pressAll ⟨settings, ⟨earlier, .number (.ofList cs)⟩⟩ (ds.filterMap Key.ofChar?)).calculator =
      ⟨settings, ⟨earlier, .number (.ofList (cs ++ ds))⟩⟩ := by
  induction ds generalizing cs with
  | nil => simp
  | cons c ds ih =>
    obtain ⟨hc, hds⟩ := List.forall_mem_cons.mp h
    obtain ⟨d, rfl⟩ := Digit.exists_toChar_eq hc
    have hpress : (press ⟨settings, ⟨earlier, .number (.ofList cs)⟩⟩ (.digit d)).calculator =
        ⟨settings, ⟨earlier, .number (.ofList (cs ++ [d.toChar]))⟩⟩ := by
      simp only [press, edit, Entry.appendDigit, ofList_push]
    rw [List.filterMap_cons_some (Key.ofChar?_toChar d), pressAll_cons, hpress, ih hds,
      List.append_assoc]
    rfl

/-- A point extends a literal that has none. -/
theorem press_point {cs : List Char} (hne : cs ≠ []) (hp : '.' ∉ cs) :
    (press ⟨settings, ⟨earlier, .number (.ofList cs)⟩⟩ .point).calculator =
      ⟨settings, ⟨earlier, .number (.ofList (cs ++ ['.']))⟩⟩ := by
  have hempty : String.ofList cs ≠ "" := fun h => hne (by simpa using congrArg String.toList h)
  simp only [press, Entry.appendPoint, String.toList_ofList, if_neg hp, if_neg hempty, edit,
    ofList_push]

/-- **The characters of a literal type it**, wherever a digit begins a
literal. -/
theorem pressAll_literal (hstart : ∀ d, (start.press (.digit d)).calculator =
      ⟨settings, ⟨earlier, .number (.ofList [d.toChar])⟩⟩) {cs : List Char} (h : IsLiteral cs) :
    (start.pressAll (cs.filterMap Key.ofChar?)).calculator =
      ⟨settings, ⟨earlier, .number (.ofList cs)⟩⟩ := by
  have hwhole : ∀ ds, ds ≠ [] → Digits ds → (start.pressAll (ds.filterMap Key.ofChar?)).calculator =
      ⟨settings, ⟨earlier, .number (.ofList ds)⟩⟩ := by
    intro ds hne hds
    obtain ⟨c, ds, rfl⟩ := List.exists_cons_of_ne_nil hne
    obtain ⟨hc, hrest⟩ := List.forall_mem_cons.mp hds
    obtain ⟨d, rfl⟩ := Digit.exists_toChar_eq hc
    rw [List.filterMap_cons_some (Key.ofChar?_toChar d), pressAll_cons, hstart,
      pressAll_digits hrest]
    rfl
  obtain ⟨ds, hne, hds, rfl | ⟨fs, hfs, rfl⟩⟩ := h
  · exact hwhole _ hne hds
  · have hp : '.' ∉ ds := fun hmem => by cases hds _ hmem
    rw [List.filterMap_append, calculator_pressAll_append, hwhole ds hne hds,
      List.filterMap_cons_some Key.ofChar?_point, pressAll_cons, press_point hne hp,
      pressAll_digits hfs, List.append_assoc]
    rfl

end Calculator

/-! ## Entries -/

/-- What typing alone makes of a first literal. -/
def IsTypable (text : String) : Prop := text = "" ∨ IsLiteral text.toList

theorem Entry.toList_display (e : Entry) :
    e.display.toList = (e.earlier.reverse ++ [e.last]).flatMap Entry.shownToken := by
  rw [Entry.display, String.toList_ofList, Entry.tokens_eq]

theorem isKeyText_shownToken_operator (op : Operator) :
    IsKeyText (Entry.shownToken (.operator op)) := by
  have hspace : Key.IsKeyChar ' ' := .inl rfl
  have hop : Key.IsKeyChar op.symbol := .inr ⟨_, Key.ofChar?_symbol op⟩
  intro c hc
  simp only [Entry.shownToken, List.mem_cons, List.not_mem_nil, or_false] at hc
  rcases hc with rfl | rfl | rfl
  · exact hspace
  · exact hop
  · exact hspace

theorem keys_shownToken_operator (op : Operator) :
    (Entry.shownToken (.operator op)).filterMap Key.ofChar? = [.operator op] := by
  rw [Entry.shownToken, List.filterMap_cons_none Key.ofChar?_space,
    List.filterMap_cons_some (Key.ofChar?_symbol op), List.filterMap_cons_none Key.ofChar?_space]
  rfl

namespace Grown

variable {First First' : String → Prop} {earlier : List Token} {last : Token}

/-- It is the first literal alone that decides which form a first literal
has. -/
theorem of_head? (h : Grown First earlier last)
    (hhead : ∀ text, (earlier.reverse ++ [last]).head? = some (.number text) → First' text) :
    Grown First' earlier last := by
  induction h with
  | first _ => exact .first (hhead _ rfl)
  | operator hprev hne ih => exact .operator (ih (by simpa using hhead)) hne
  | literal hprev hlit ih => exact .literal (ih (by simpa using hhead)) hlit

/-- The display shows keys and spaces only. -/
theorem isKeyText_shown (h : Grown IsTypable earlier last) :
    IsKeyText ((earlier.reverse ++ [last]).flatMap Entry.shownToken) := by
  induction h with
  | @first text hfirst =>
    rcases hfirst with rfl | hlit
    · simp [Entry.shownToken, IsKeyText]
    · simpa [Entry.shownToken] using hlit.isKeyText
  | @operator earlier text op _ _ ih =>
    rw [List.reverse_cons, List.flatMap_append, Key.isKeyText_append, List.flatMap_singleton]
    exact ⟨ih, isKeyText_shownToken_operator op⟩
  | @literal earlier op text _ hlit ih =>
    rw [List.reverse_cons, List.flatMap_append, Key.isKeyText_append, List.flatMap_singleton]
    exact ⟨ih, hlit.isKeyText⟩

/-- **What is shown types what was typed**, token by token. -/
theorem pressAll_shown (settings : Settings) (h : Grown IsTypable earlier last) :
    ((Calculator.new settings).pressAll
      (((earlier.reverse ++ [last]).flatMap Entry.shownToken).filterMap Key.ofChar?)).calculator =
      ⟨settings, ⟨earlier, last⟩⟩ := by
  induction h with
  | @first text hfirst =>
    rcases hfirst with rfl | hlit
    · rfl
    · have hstart : ∀ d : Digit, ((Calculator.new settings).press (.digit d)).calculator =
          ⟨settings, ⟨[], .number (.ofList [d.toChar])⟩⟩ := fun _ => rfl
      have htype := Calculator.pressAll_literal hstart hlit
      rw [String.ofList_toList] at htype
      rw [List.reverse_nil, List.nil_append, List.flatMap_singleton]
      exact htype
  | @operator earlier text op _ hne ih =>
    rw [List.reverse_cons, List.flatMap_append, List.filterMap_append,
      Calculator.calculator_pressAll_append, ih, List.flatMap_singleton, keys_shownToken_operator,
      Calculator.pressAll_cons]
    simp only [Calculator.press, Entry.appendOperator, if_neg hne, Calculator.edit,
      Calculator.pressAll_nil]
  | @literal earlier op text _ hlit ih =>
    have hstart : ∀ d : Digit,
        (Calculator.press ⟨settings, ⟨earlier, .operator op⟩⟩ (.digit d)).calculator =
          ⟨settings, ⟨.operator op :: earlier, .number (.ofList [d.toChar])⟩⟩ := fun _ => rfl
    have htype := Calculator.pressAll_literal hstart hlit
    rw [String.ofList_toList] at htype
    rw [List.reverse_cons, List.flatMap_append, List.filterMap_append,
      Calculator.calculator_pressAll_append, ih, List.flatMap_singleton]
    exact htype

end Grown

/-- **The display can be typed again.** After any keys, if the expression
begins with a literal that can be typed, or with an empty one, then what the
display shows consists of keys and spaces, and its keys give a new calculator
the same tokens. -/
theorem retype_display (settings : Settings) (keys : List Key) (text : String)
    (hhead : ((Calculator.new settings).pressAll keys).calculator.entry.tokens.head? =
      some (.number text))
    (htext : text = "" ∨ IsLiteral text.toList) :
    ∃ typed, Key.ofText ((Calculator.new settings).pressAll keys).calculator.display = .ok typed ∧
      ((Calculator.new settings).pressAll typed).calculator.entry.tokens =
        ((Calculator.new settings).pressAll keys).calculator.entry.tokens := by
  have hgrown := (Calculator.grown_pressAll settings keys).2
  generalize ((Calculator.new settings).pressAll keys).calculator = c at hhead hgrown ⊢
  have htyped : Grown IsTypable c.entry.earlier c.entry.last := by
    refine hgrown.of_head? fun text' htext' => ?_
    rw [← Entry.tokens_eq, hhead] at htext'
    cases htext'
    exact htext
  refine ⟨_, Key.ofText_eq_ok_iff.mpr ⟨?_, rfl⟩, ?_⟩
  · rw [Calculator.display, Entry.toList_display]
    exact htyped.isKeyText_shown
  · rw [Calculator.display, Entry.toList_display, htyped.pressAll_shown]

/-- A trailing point and a dangling operator are typed again as they were. -/
theorem retype_display_dangling :
    let keys : List Key := [.point, .digit ⟨5, by decide⟩, .operator .plus, .digit ⟨0, by decide⟩,
      .digit ⟨7, by decide⟩, .point, .point, .operator .power, .operator .times]
    let c := ((Calculator.new .default).pressAll keys).calculator
    c.display = "0.5 + 07. ^ " ∧ c.entry.tokens.head? = some (.number "0.5") ∧
      IsLiteral "0.5".toList ∧ ∃ typed, Key.ofText "0.5 + 07. ^ " = .ok typed ∧
        ((Calculator.new .default).pressAll typed).calculator.entry.tokens = c.entry.tokens := by
  intro keys c
  have hdisplay : c.display = "0.5 + 07. ^ " := by decide
  have hhead : c.entry.tokens.head? = some (.number "0.5") := by decide
  have hlit : IsLiteral "0.5".toList :=
    ⟨['0'], by simp, by simp [Digits], .inr ⟨['5'], by simp [Digits], by decide⟩⟩
  refine ⟨hdisplay, hhead, hlit, ?_⟩
  rw [← hdisplay]
  exact retype_display .default keys "0.5" hhead (.inr hlit)

end Keypad
