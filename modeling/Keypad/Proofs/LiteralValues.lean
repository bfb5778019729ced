/-
What the literals of an entry are read as.

A literal that is typed, and a result with what is typed after it, is read to
its last character: nothing that keys add makes a text that is read in part.
Only after `Infinity` and `NaN` what is typed has no effect.

* `isReadWhole`: a decimal as a whole text is read as the nearest double.
* `IsWord.readChars_append`: what stands after a word has no effect.
* `grownFrom_pressAll`: where the first literal of an entry comes from.
* `read_typed`: so all literals that do not begin with the error marker are read
  without loss.
-/
import Mathlib
import Keypad.Proofs.Keystrokes
import Keypad.Proofs.Scanning
import Keypad.Proofs.ShownDigits

namespace Keypad

open Binary64
open Decimal (spelled)
open Numeral (IsMantissa)

/-! ## Literals and numerals -/

namespace IsLiteral

variable {cs base more : List Char}

theorem exists_isMantissa (h : IsLiteral cs) :
    ∃ whole fraction, whole ≠ [] ∧ IsMantissa cs whole fraction := by
  obtain ⟨ds, hne, hds, rfl | ⟨fs, hfs, rfl⟩⟩ := h
  · exact ⟨cs, [], hne, .whole hds hne⟩
  · exact ⟨ds, fs, hne, .point hds hfs (by simp [hne])⟩

/-- What typing adds to a literal makes a literal of it. -/
theorem append_extension (h : IsLiteral cs) (hpoint : '.' ∈ cs → '.' ∈ base)
    (hmore : IsExtension base more) : IsLiteral (cs ++ more) := by
  obtain ⟨ds, hne, hds, rfl | ⟨fs, hfs, rfl⟩⟩ := h
  · rcases hmore with hmore | ⟨-, ds', fs', hds', hfs', rfl⟩
    · exact .of_digits (hds.append hmore) (by simp [hne])
    · exact ⟨cs ++ ds', by simp [hne], hds.append hds', .inr ⟨fs', hfs', by simp⟩⟩
  · rcases hmore with hmore | ⟨hbase, -⟩
    · exact ⟨ds, hne, hds, .inr ⟨fs ++ more, hfs.append hmore, by simp⟩⟩
    · exact absurd (hpoint (by simp)) hbase

end IsLiteral

/-- A decimal without an exponent is a literal. -/
theorem Decimal.isLiteral_positional (d : Decimal) : IsLiteral d.positional := by
  obtain ⟨hwhole, hne, hfraction⟩ := d.digits_parts
  unfold positional joinParts
  split
  · exact .of_digits hwhole hne
  · exact ⟨_, hne, hwhole, .inr ⟨_, hfraction, rfl⟩⟩

namespace NumberText

/-- A text is read to its last character, as a decimal with a sign, and has
the value of the nearest double. -/
structure IsReadWhole (text : String) (negative : Bool) (d : Decimal) : Prop where
  ofChars?_eq : Numeral.ofChars? text.toList = some ⟨negative, .decimal d⟩
  isNearest : IsNearest (signed negative d.toRat) (read text)
  isNegative_eq : isNegative (read text) = negative

/-- **A decimal that is the whole text** is read as the nearest double, and its
sign is that of the text, also at zero. -/
theorem isReadWhole {text : String} {negative : Bool} {d : Decimal}
    (h : Numeral.ofChars? text.toList = some ⟨negative, .decimal d⟩) :
    IsReadWhole text negative d := by
  have hread : read text = ofIndex negative d.nearestIndex := by
    rw [read, readChars_of_ofChars? h]
    show ofIndex negative d.index = _
    rw [d.index_eq_nearestIndex]
  refine ⟨h, ?_, ?_⟩
  · rw [hread]
    exact isNearest_ofIndex negative d
  · rw [hread]
    exact isNegative_ofIndex _ d.isNearestIndex_nearestIndex.le_infinity

/-! ## Words -/

/-- The texts of doubles that are not decimals, and the doubles they are read
as. -/
inductive IsWord : List Char → Float → Prop
  | infinity : IsWord "Infinity".toList (ofIndex false infinity)
  | negativeInfinity : IsWord "-Infinity".toList (ofIndex true infinity)
  | nan : IsWord "NaN".toList nan

/-- Whatever stands after a word has no effect. -/
theorem readChars_append {word : List Char} {n : Numeral} (hword : Numeral.ofChars? word = some n)
    {more : List Char} (hscan : Numeral.Scan.leading? (word ++ more) = some word) :
    readChars (word ++ more) = n.value := by
  rw [readChars, Numeral.leading?_eq_scan, hscan, Option.bind_some, hword]
  rfl

theorem IsWord.readChars_append {word : List Char} {x : Float} (h : IsWord word x)
    (more : List Char) : readChars (word ++ more) = x := by
  open Numeral.Scan in
  cases h with
  | infinity =>
    exact NumberText.readChars_append (n := ⟨false, .infinity⟩) (by decide)
      (by simp [leading?, word?, words, sign])
  | negativeInfinity =>
    exact NumberText.readChars_append (n := ⟨true, .infinity⟩) (by decide)
      (by simp [leading?, word?, words, sign])
  | nan =>
    exact NumberText.readChars_append (n := ⟨false, .nan⟩) (by decide)
      (by simp [leading?, word?, words, sign])

/-! ## Results and what is typed after them -/

/-- A literal, with a minus in front or without. -/
def IsSignedLiteral (cs : List Char) : Prop :=
  ∃ (negative : Bool) (m : List Char), IsLiteral m ∧ cs = (if negative then ['-'] else []) ++ m

/-- A word and what was typed after it. -/
def IsExtendedWord (cs : List Char) : Prop :=
  ∃ word x more, IsWord word x ∧ IsExtension [] more ∧ cs = word ++ more

/-- What is shown for a double is a literal or a word. -/
theorem shown_cases (x : Float) :
    IsSignedLiteral (shown x).toList ∨ ∃ word v, IsWord word v ∧ (shown x).toList = word := by
  rw [shown, write, String.toList_ofList, writeChars]
  by_cases hnan : infinity < index x
  · rw [if_pos hnan]
    exact .inr ⟨_, _, .nan, rfl⟩
  rw [if_neg hnan]
  by_cases hinf : index x = infinity
  · right
    rw [if_pos hinf]
    cases display.showsMinus x with
    | false => exact ⟨_, _, .infinity, rfl⟩
    | true => exact ⟨_, _, .negativeInfinity, rfl⟩
  · rw [if_neg hinf]
    exact .inl ⟨_, _, Decimal.isLiteral_positional _, rfl⟩

/-- **First literals.** One that does not begin with an error marker is a
literal, with a minus in front or without, or begins with a word. -/
theorem firstText_cases {text : String} (h : FirstText (fun base => ∃ x, base = shown x) text)
    (hne : text ≠ "") : IsSignedLiteral text.toList ∨ IsExtendedWord text.toList := by
  rcases h with h | h | ⟨_, more, ⟨x, rfl⟩, -, hmore, htext⟩
  · exact absurd h hne
  · exact .inl ⟨false, _, h, rfl⟩
  · rw [htext]
    rcases shown_cases x with ⟨negative, m, hm, hshown⟩ | ⟨word, v, hword, hshown⟩
    · rw [hshown] at hmore ⊢
      exact .inl ⟨negative, m ++ more, hm.append_extension (fun hp => by simp [hp]) hmore, by simp⟩
    · rw [hshown]
      exact .inr ⟨word, v, more, hword, hmore.imp id fun ⟨_, hfound⟩ => ⟨nofun, hfound⟩, rfl⟩

end NumberText

/-! ## Where the first literal comes from -/

/-- The entry after the keys began with the error marker: of the keys that put
something in the place of an expression the last one was a solve that failed. -/
def FromMarker (settings : Settings) (keys : List Key) : Prop :=
  ∃ before after e, keys = before ++ .solve :: after ∧
    (∀ key ∈ after, key ≠ .solve ∧ key ≠ .clear) ∧
    ((Calculator.new settings).pressAll before).calculator.solve.outcome? = some (.error e)

theorem FromMarker.concat {settings : Settings} {keys : List Key} (h : FromMarker settings keys)
    {key : Key} (hsolve : key ≠ .solve) (hclear : key ≠ .clear) :
    FromMarker settings (keys ++ [key]) := by
  obtain ⟨before, after, e, rfl, hafter, houtcome⟩ := h
  refine ⟨before, after ++ [key], e, by simp, fun k hk => ?_, houtcome⟩
  rcases List.mem_append.mp hk with hk | hk
  · exact hafter k hk
  · cases List.mem_singleton.mp hk
    exact ⟨hsolve, hclear⟩

/-- A text that solving can have put in the place of an expression, with what
the keys tell about it. -/
def IsSource (settings : Settings) (keys : List Key) (base : String) : Prop :=
  (∃ x, base = NumberText.shown x) ∨ FromMarker settings keys ∧ base = settings.errorMarker

/-- **Sources.** Whatever is pressed on a new calculator, the first literal
comes from typing, from a result, or from the marker of the last failure. -/
theorem grownFrom_pressAll (settings : Settings) (keys : List Key) :
    ((Calculator.new settings).pressAll keys).calculator.entry.GrownFrom
      (IsSource settings keys) := by
  induction keys using List.reverseRecOn with
  | nil => exact .fresh
  | append_singleton keys key ih =>
    have hsettings := (Calculator.grown_pressAll settings keys).1
    rw [Calculator.calculator_pressAll_append, Calculator.pressAll_cons, Calculator.pressAll_nil]
    refine Calculator.grown_press_of key ih (fun hsolve hclear base hbase => ?_)
      fun hkey outcome houtcome => ?_
    · exact hbase.imp id fun ⟨hmarker, hbase⟩ => ⟨hmarker.concat hsolve hclear, hbase⟩
    · subst hkey
      cases outcome with
      | ok x => exact .inl ⟨x, rfl⟩
      | error e =>
        refine .inr ⟨⟨keys, [], e, rfl, by simp, houtcome⟩, ?_⟩
        show Settings.errorMarker _ = _
        rw [hsettings]

/-! ## Any literal -/

open NumberText in
/-- How a text is read of which nothing is lost. -/
inductive IsReadInFull (text : String) : Prop
  /-- A literal, with a minus in front or without, is read to its last
  character. -/
  | literal {negative : Bool} {m whole fraction : List Char} :
      text.toList = (if negative then ['-'] else []) ++ m →
      IsMantissa m whole fraction → whole ≠ [] →
      IsReadWhole text negative (spelled whole fraction) → IsReadInFull text
  /-- A word keeps its value, with digits and at most one point after it. -/
  | word {word more : List Char} {x : Float} :
      text.toList = word ++ more → IsWord word x → IsExtension [] more →
      NumberText.read text = x → IsReadInFull text

theorem NumberText.IsSignedLiteral.isReadInFull {text : String} (h : IsSignedLiteral text.toList) :
    IsReadInFull text := by
  obtain ⟨negative, m, hm, htext⟩ := h
  obtain ⟨whole, fraction, hne, hmantissa⟩ := hm.exists_isMantissa
  refine .literal htext hmantissa hne (isReadWhole ?_)
  rw [htext]
  exact Numeral.ofChars?_of_isMantissa negative hmantissa hne

theorem NumberText.IsExtendedWord.isReadInFull {text : String} (h : IsExtendedWord text.toList) :
    IsReadInFull text := by
  obtain ⟨word, x, more, hword, hmore, htext⟩ := h
  refine .word htext hword hmore ?_
  rw [NumberText.read, htext]
  exact hword.readChars_append more

/-- **No key of a literal is lost.** Whatever is pressed on a new calculator, a
literal that is not empty and does not begin with the error marker is read as
the double nearest to all of it, or it is a word with what was typed after
it. -/
theorem read_typed (settings : Settings) (keys : List Key) {i : Nat} {text : String}
    (htoken : ((Calculator.new settings).pressAll keys).calculator.entry.tokens[i]? =
      some (.number text))
    (hempty : text ≠ "") (hmarker : ¬ (i = 0 ∧ FromMarker settings keys)) :
    IsReadInFull text := by
  obtain ⟨first, ts, htokens, hfirst, -, hlater⟩ := (grownFrom_pressAll settings keys).exists_cons
  rw [Entry.tokens_eq, htokens] at htoken
  cases i with
  | zero =>
    cases htoken
    have hresult := hfirst.mono fun base h => h.resolve_right fun hbase => hmarker ⟨rfl, hbase.1⟩
    rcases NumberText.firstText_cases hresult hempty with h | h
    · exact h.isReadInFull
    · exact h.isReadInFull
  | succ i =>
    rw [List.getElem?_cons_succ] at htoken
    have hliteral := hlater text (List.mem_of_getElem? htoken)
    exact NumberText.IsSignedLiteral.isReadInFull ⟨false, _, hliteral, rfl⟩

/-- Where the only `=` had a value, nothing comes from the error marker. -/
theorem not_fromMarker {settings : Settings} {before after : List Key} {x : Float}
    (hbefore : .solve ∉ before) (hafter : .solve ∉ after)
    (h : ((Calculator.new settings).pressAll before).calculator.solve.outcome? = some (.ok x)) :
    ¬ FromMarker settings (before ++ .solve :: after) := by
  rintro ⟨before', after', e, hkeys, -, hfailed⟩
  obtain ⟨rfl, -⟩ := (List.append_cons_inj_of_notMem hbefore hafter).mp hkeys
  rw [h] at hfailed
  cases hfailed

/-- `1 / 0` is infinite, and a digit typed after it does not change that. `1 - 3`
is negative, and what is typed after it counts as well as the sign. -/
theorem read_typed_after_results :
    let one := Key.digit ⟨1, by decide⟩
    let three := Key.digit ⟨3, by decide⟩
    let five := Key.digit ⟨5, by decide⟩
    let infinite := [one, .operator .divide, .digit ⟨0, by decide⟩, .solve, five]
    let negative := [one, .operator .minus, three, .solve, .point, five]
    (((Calculator.new .default).pressAll infinite).calculator.entry.tokens[0]? =
        some (.number "Infinity5") ∧
      "Infinity5" ≠ "" ∧ ¬ (0 = 0 ∧ FromMarker .default infinite) ∧ IsReadInFull "Infinity5") ∧
    ((Calculator.new .default).pressAll negative).calculator.entry.tokens[0]? =
        some (.number "-2.5") ∧
      "-2.5" ≠ "" ∧ ¬ (0 = 0 ∧ FromMarker .default negative) ∧ IsReadInFull "-2.5" ∧
      NumberText.IsReadWhole "-2.5" true ⟨25, -1⟩ := by
  intro one three five infinite negative
  have hinfinite : ((Calculator.new .default).pressAll infinite).calculator.entry.tokens[0]? =
      some (.number "Infinity5") := by decide +kernel
  have hnegative : ((Calculator.new .default).pressAll negative).calculator.entry.tokens[0]? =
      some (.number "-2.5") := by decide +kernel
  have hquotient : ((Calculator.new .default).pressAll
      [one, .operator .divide, .digit ⟨0, by decide⟩]).calculator.solve.outcome? =
        some (.ok (ofIndex false infinity)) := by decide +kernel
  have hdifference : ((Calculator.new .default).pressAll
      [one, .operator .minus, three]).calculator.solve.outcome? =
        some (.ok (ofIndex true (1024 * binadeSize))) := by decide +kernel
  have hmarker : ¬ (0 = 0 ∧ FromMarker .default infinite) := fun h =>
    not_fromMarker (by decide) (by decide) hquotient h.2
  have hmarker' : ¬ (0 = 0 ∧ FromMarker .default negative) := fun h =>
    not_fromMarker (by decide) (by decide) hdifference h.2
  have hfull := read_typed .default negative hnegative (by decide) hmarker'
  refine ⟨⟨hinfinite, by decide, hmarker, read_typed .default infinite hinfinite (by decide) hmarker⟩,
    hnegative, by decide, hmarker', hfull, ?_⟩
  cases hfull with
  | literal _ _ _ hwhole =>
    have hchars : Numeral.ofChars? "-2.5".toList = some ⟨true, .decimal ⟨25, -1⟩⟩ := by
      decide +kernel
    have hsame := hwhole.ofChars?_eq.symm.trans hchars
    obtain ⟨rfl, hdecimal⟩ := Numeral.mk.inj (Option.some.inj hsame)
    rwa [Magnitude.decimal.inj hdecimal] at hwhole
  | word htext hword _ _ => cases hword <;> simp at htext

end Keypad
