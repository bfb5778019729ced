/-
What a key that types does to an entry, whatever the entry is.

An entry need not have come about by typing: neighbours may be two literals or
two operators, and literals may have any text. Still a key that is accepted adds
something at the very end, and one that is refused changes nothing.

* `lengthened_iff`: which strokes are accepted, and what they add.
* `exists_display_afterStroke`: what they add is shown at the end.
* `display_prefix_strokes`: strokes take nothing back from the display.
* `stroke_lengthens`: a stroke on any entry.
-/
import Keypad.Calculator

namespace Keypad

/-- What is typed with one key. -/
inductive Stroke where
  | digit (d : Digit)
  | point
  | operator (op : Operator)
  deriving Repr, DecidableEq

namespace Stroke

def key : Stroke → Key
  | digit d => .digit d
  | point => .point
  | operator op => .operator op

/-- What a stroke adds to the text of a literal. -/
inductive Extends : Stroke → String → String → Prop
  | digit (d : Digit) (text : String) : Extends (digit d) text (String.singleton d.toChar)
  | point {text : String} : text ≠ "" → '.' ∉ text.toList → Extends point text "."
  | firstPoint : Extends point "" "0."

/-- Which token a stroke adds after which one. -/
inductive Adds : Stroke → Token → Token → Prop
  | literal (d : Digit) (op : Operator) :
      Adds (digit d) (.operator op) (.number (String.singleton d.toChar))
  | operator {text : String} (op : Operator) : text ≠ "" →
      Adds (operator op) (.number text) (.operator op)

end Stroke

/-- What a stroke that is accepted makes of a token list: the last token is a
literal and gets a longer text, or one more token comes after it. -/
inductive Lengthened (k : Stroke) : List Token → List Token → Prop
  | literal {before : List Token} {text added : String} : k.Extends text added →
      Lengthened k (before ++ [.number text]) (before ++ [.number (text ++ added)])
  | token {before : List Token} {last t : Token} : k.Adds last t →
      Lengthened k (before ++ [last]) (before ++ [last, t])

namespace Entry

variable {e e' : Entry} {k : Stroke} {ts : List Token}

/-- The entry with a stroke, unless it is refused. -/
def strike (e : Entry) : Stroke → Except Refusal Entry
  | .digit d => .ok (e.appendDigit d)
  | .point => e.appendPoint
  | .operator op => e.appendOperator op

/-- The entry after a stroke, and whether the stroke was accepted. A stroke that
is refused leaves the entry as it is. -/
def afterStroke (e : Entry) (k : Stroke) : Entry × Bool :=
  match e.strike k with
  | .ok e' => (e', true)
  | .error _ => (e, false)

/-- The calculator does to its entry what the stroke does, and it logs the
strokes that are refused. -/
theorem afterStroke_eq_press (c : Calculator) (k : Stroke) :
    c.entry.afterStroke k =
      ((c.press k.key).calculator.entry, (c.press k.key).log.isEmpty) := by
  cases k with
  | digit d => rfl
  | point | operator _ =>
    simp only [afterStroke, strike, Stroke.key, Calculator.press, Calculator.edit]
    split <;> simp_all

/-! ## Strokes that are accepted -/

theorem tokens_mk (earlier : List Token) (last : Token) :
    (Entry.mk earlier last).tokens = earlier.reverse ++ [last] := tokens_eq _

theorem tokens_mk_cons (earlier : List Token) (last t : Token) :
    (Entry.mk (last :: earlier) t).tokens = earlier.reverse ++ [last, t] := by
  rw [tokens_mk, List.reverse_cons, List.append_assoc]
  rfl

theorem lengthened_of_strike (h : e.strike k = .ok e') : Lengthened k e.tokens e'.tokens := by
  obtain ⟨earlier, last⟩ := e
  cases k with
  | digit d =>
    cases h
    cases last with
    | number text =>
      rw [appendDigit, tokens_mk, tokens_mk, ← String.append_singleton]
      exact .literal (.digit d text)
    | operator op =>
      rw [appendDigit, tokens_mk, tokens_mk_cons]
      exact .token (.literal d op)
  | point =>
    cases last with
    | operator op => cases h
    | number text =>
      simp only [strike, appendPoint] at h
      split at h
      · cases h
      next hp =>
      cases h
      rw [tokens_mk, tokens_mk]
      by_cases hempty : text = ""
      · subst hempty
        exact .literal .firstPoint
      · rw [if_neg hempty, ← String.append_singleton]
        exact .literal (.point hempty hp)
  | operator op =>
    cases last with
    | operator op' => cases h
    | number text =>
      simp only [strike, appendOperator] at h
      split at h
      · cases h
      next hne =>
      cases h
      rw [tokens_mk, tokens_mk_cons]
      exact .token (.operator op hne)

theorem strike_of_lengthened (h : Lengthened k e.tokens ts) :
    ∃ e', e.strike k = .ok e' ∧ e'.tokens = ts := by
  obtain ⟨earlier, last⟩ := e
  rw [tokens_mk] at h
  generalize hbefore : earlier.reverse ++ [last] = before at h
  cases h with
  | @literal before text added hadded =>
    obtain ⟨rfl, hlast⟩ := List.append_inj' hbefore rfl
    cases hlast
    cases hadded with
    | digit d => exact ⟨_, rfl, by rw [appendDigit, tokens_mk, String.append_singleton]⟩
    | point hne hp =>
      refine ⟨_, if_neg hp, ?_⟩
      rw [if_neg hne, tokens_mk, ← String.append_singleton]
      rfl
    | firstPoint => exact ⟨_, rfl, tokens_mk _ _⟩
  | @token before last' t hadded =>
    obtain ⟨rfl, hlast⟩ := List.append_inj' hbefore rfl
    cases hlast
    cases hadded with
    | literal d op => exact ⟨_, rfl, tokens_mk_cons _ _ _⟩
    | operator op hne => exact ⟨_, if_neg hne, tokens_mk_cons _ _ _⟩

/-- **Which strokes are accepted**, and what they add: those that lengthen the
token list, in one of the ways listed. -/
theorem lengthened_iff : Lengthened k e.tokens ts ↔
    (e.afterStroke k).2 = true ∧ (e.afterStroke k).1.tokens = ts := by
  constructor
  · intro h
    obtain ⟨e', he', rfl⟩ := strike_of_lengthened h
    simp only [afterStroke, he', and_self]
  · rintro ⟨haccepted, rfl⟩
    cases hstrike : e.strike k with
    | error refusal => simp [afterStroke, hstrike] at haccepted
    | ok e' =>
      simp only [afterStroke, hstrike]
      exact lengthened_of_strike hstrike

theorem afterStroke_of_refused (h : (e.afterStroke k).2 = false) : (e.afterStroke k).1 = e := by
  cases hstrike : e.strike k with
  | ok e' => simp [afterStroke, hstrike] at h
  | error refusal => simp [afterStroke, hstrike]

/-! ## The display -/

theorem Lengthened.exists_shown {ts' : List Token} (h : Lengthened k ts ts') :
    ∃ suffix, suffix ≠ [] ∧ ts'.flatMap shownToken = ts.flatMap shownToken ++ suffix := by
  cases h with
  | @literal before text added hadded =>
    refine ⟨added.toList, ?_, by simp [shownToken]⟩
    cases hadded <;> simp
  | @token before last t hadded =>
    refine ⟨shownToken t, ?_, by simp⟩
    cases hadded <;> simp [shownToken]

/-- **What a stroke shows** comes after what was shown, and it is nothing exactly
if the stroke is refused. -/
theorem exists_display_afterStroke (e : Entry) (k : Stroke) : ∃ suffix : String,
    (e.afterStroke k).1.display = e.display ++ suffix ∧
      (suffix = "" ↔ (e.afterStroke k).2 = false) := by
  cases haccepted : (e.afterStroke k).2 with
  | false =>
    refine ⟨"", ?_, by simp⟩
    rw [afterStroke_of_refused haccepted, String.append_empty]
  | true =>
    obtain ⟨suffix, hne, hshown⟩ :=
      Lengthened.exists_shown (lengthened_iff.mpr ⟨haccepted, rfl⟩)
    refine ⟨String.ofList suffix, ?_, by simpa using hne⟩
    rw [display, display, hshown, String.ofList_append]

/-- An accepted stroke shows, so the tokens have changed. -/
theorem afterStroke_accepted_iff (e : Entry) (k : Stroke) :
    (e.afterStroke k).2 = true ↔ (e.afterStroke k).1.tokens ≠ e.tokens := by
  obtain ⟨suffix, hdisplay, hempty⟩ := e.exists_display_afterStroke k
  constructor
  · intro haccepted heq
    rw [display, heq, ← display] at hdisplay
    have hsuffix := congrArg String.toList hdisplay
    rw [String.toList_append, List.self_eq_append_right, String.toList_eq_nil_iff] at hsuffix
    rw [hempty.mp hsuffix] at haccepted
    cases haccepted
  · intro hne
    rw [← Bool.not_eq_false]
    intro hrefused
    rw [afterStroke_of_refused hrefused] at hne
    exact hne rfl

/-- **Strokes take nothing back**: whatever is typed, the display goes on from
what it was. -/
theorem display_prefix_strokes (e : Entry) (ks : List Stroke) :
    e.display.toList <+: (ks.foldl (fun e k => (e.afterStroke k).1) e).display.toList := by
  induction ks generalizing e with
  | nil => exact List.prefix_refl _
  | cons k ks ih =>
    obtain ⟨suffix, hdisplay, -⟩ := e.exists_display_afterStroke k
    refine List.IsPrefix.trans ?_ (ih _)
    rw [hdisplay, String.toList_append]
    exact List.prefix_append _ _

/-! ## Strokes twice -/

theorem afterStroke_point_point (e : Entry) :
    (e.afterStroke .point).1.afterStroke .point = ((e.afterStroke .point).1, false) := by
  obtain ⟨earlier, last⟩ := e
  cases last with
  | operator op => rfl
  | number text =>
    by_cases hp : '.' ∈ text.toList
    · -- Refused once, refused again.
      have hrefused : afterStroke ⟨earlier, .number text⟩ .point =
          (⟨earlier, .number text⟩, false) := by
        simp [afterStroke, strike, appendPoint, hp]
      rw [hrefused, hrefused]
    · have haccepted : ∃ text', '.' ∈ text'.toList ∧
          (afterStroke ⟨earlier, .number text⟩ .point).1 = ⟨earlier, .number text'⟩ := by
        refine ⟨if text = "" then "0." else text.push '.', ?_, ?_⟩
        · split <;> simp
        · simp [afterStroke, strike, appendPoint, hp]
      obtain ⟨text', hp', heq⟩ := haccepted
      rw [heq]
      simp [afterStroke, strike, appendPoint, hp']

theorem afterStroke_operator_operator (e : Entry) (op op' : Operator) :
    (e.afterStroke (.operator op)).1.afterStroke (.operator op') =
      ((e.afterStroke (.operator op)).1, false) := by
  obtain ⟨earlier, last⟩ := e
  cases last with
  | operator _ => rfl
  | number text =>
    by_cases hempty : text = ""
    · subst hempty
      rfl
    · simp [afterStroke, strike, appendOperator, hempty]

/-- **A stroke on any entry.** It is accepted exactly if it changes the token
list, and that is exactly where it can lengthen it: the last token is a literal
and its text gets the digit, a point or, if it was empty, `0.` at its end, or one
token comes after the last one, and all other tokens stay. The display goes on
from what it was, by nothing exactly if the stroke is refused. A point right
after a point and an operator right after an operator are refused, whether the
first one was accepted or not. -/
theorem stroke_lengthens (e : Entry) :
    (∀ k,
      ((e.afterStroke k).2 = true ↔ (e.afterStroke k).1.tokens ≠ e.tokens) ∧
      (∀ ts, Lengthened k e.tokens ts ↔
        (e.afterStroke k).2 = true ∧ (e.afterStroke k).1.tokens = ts) ∧
      ∃ suffix : String, (e.afterStroke k).1.display = e.display ++ suffix ∧
        (suffix = "" ↔ (e.afterStroke k).2 = false)) ∧
    (e.afterStroke .point).1.afterStroke .point = ((e.afterStroke .point).1, false) ∧
    ∀ op op', (e.afterStroke (.operator op)).1.afterStroke (.operator op') =
      ((e.afterStroke (.operator op)).1, false) :=
  ⟨fun k => ⟨e.afterStroke_accepted_iff k, fun _ => lengthened_iff, e.exists_display_afterStroke k⟩,
    e.afterStroke_point_point, e.afterStroke_operator_operator⟩

end Entry

end Keypad
