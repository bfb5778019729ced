/-
The characters of what is typed and of what is shown.

Neither literals as they are typed nor doubles as text have white space in them.
So what holds of all other characters, and of those of the error marker, holds of
every character in the tokens of a calculator.

* `IsLiteral.blankless`, `IsExtension.blankless`: what is typed.
* `NumberText.blankless_writeChars`: doubles, as the display shows them and as
  log records do.
* `Calculator.grown_chars`: the literals after any keys.
-/
import Keypad.Proofs.KeyTexts
import Keypad.Proofs.Keystrokes
import Keypad.Proofs.NumberTexts

namespace Keypad

/-- A text without white space. -/
def Blankless (cs : List Char) : Prop := ∀ c ∈ cs, Text.isBlank c = false

instance (cs : List Char) : Decidable (Blankless cs) :=
  List.decidableBAll (fun c => Text.isBlank c = false) cs

namespace Blankless

variable {cs ds : List Char}

theorem append (hc : Blankless cs) (hd : Blankless ds) : Blankless (cs ++ ds) :=
  List.forall_mem_append.mpr ⟨hc, hd⟩

theorem cons {c : Char} (hc : Text.isBlank c = false) (hd : Blankless ds) : Blankless (c :: ds) :=
  List.forall_mem_cons.mpr ⟨hc, hd⟩

end Blankless

theorem Digits.blankless {cs : List Char} (h : Digits cs) : Blankless cs := by
  intro c hc
  obtain ⟨d, rfl⟩ := Digit.exists_toChar_eq (h c hc)
  exact d.isBlank_toChar

theorem blankless_toString (n : Nat) : Blankless (toString n).toList := by
  rw [Nat.toString_eq_repr, Nat.repr, String.toList_ofList]
  exact (Digits.toDigits n).blankless

theorem IsLiteral.blankless {cs : List Char} (h : IsLiteral cs) : Blankless cs := by
  obtain ⟨ds, -, hds, rfl | ⟨fs, hfs, rfl⟩⟩ := h
  · exact hds.blankless
  · exact hds.blankless.append (.cons rfl hfs.blankless)

theorem IsExtension.blankless {base cs : List Char} (h : IsExtension base cs) : Blankless cs := by
  obtain hcs | ⟨-, ds, fs, hds, hfs, rfl⟩ := h
  · exact hcs.blankless
  · exact hds.blankless.append (.cons rfl hfs.blankless)

theorem Operator.isBlank_symbol (op : Operator) : Text.isBlank op.symbol = false := by
  cases op <;> rfl

/-! ## Doubles -/

namespace Decimal

theorem blankless_joinParts {whole fraction : List Char} (hwhole : Digits whole)
    (hfraction : Digits fraction) : Blankless (joinParts whole fraction) := by
  unfold joinParts
  split
  · exact hwhole.blankless
  · exact hwhole.blankless.append (.cons rfl hfraction.blankless)

theorem blankless_positional (d : Decimal) : Blankless d.positional :=
  blankless_joinParts d.digits_parts.1 d.digits_parts.2.2

theorem blankless_pointed (d : Decimal) : Blankless d.pointed := by
  obtain ⟨hwhole, -, hfraction⟩ := d.digits_parts
  refine blankless_joinParts hwhole ?_
  split
  · exact .zeros 1
  · exact hfraction

theorem blankless_scientific (d : Decimal) : Blankless d.scientific := by
  have hds := Digits.toDigits d.digits
  refine (blankless_joinParts (hds.take _) (hds.drop _)).append (.cons rfl ?_)
  cases d.order - 1 with
  | ofNat n => exact blankless_toString n
  | negSucc n =>
    show Blankless ("-" ++ toString (n + 1)).toList
    rw [String.toList_append]
    exact Blankless.append (by decide) (blankless_toString _)

end Decimal

namespace NumberText

/-- **Doubles as text** have no white space in them if the style has none. -/
theorem blankless_writeChars {style : Style} (hinfinity : Blankless style.infinity.toList)
    (hfinite : ∀ d, Blankless (style.finite d)) (x : Float) : Blankless (writeChars style x) := by
  unfold writeChars
  dsimp only
  split
  · decide
  · refine Blankless.append ?_ ?_
    · split <;> decide
    · split
      · exact hinfinity
      · exact hfinite _

theorem blankless_shown (x : Float) : Blankless (shown x).toList := by
  rw [shown, write, String.toList_ofList]
  exact blankless_writeChars (by decide) Decimal.blankless_positional x

theorem blankless_log (x : Float) : Blankless (write log x).toList := by
  rw [write, String.toList_ofList]
  refine blankless_writeChars (by decide) (fun d => ?_) x
  simp only [log]
  split
  · exact d.blankless_pointed
  · exact d.blankless_scientific

end NumberText

/-! ## Tokens -/

section

variable {P : Char → Prop} (hP : ∀ c, Text.isBlank c = false → P c)

include hP

/-- A first literal consists of such characters if every result does. -/
theorem FirstText.chars {Result : String → Prop} (hres : ∀ base, Result base → ∀ c ∈ base.toList, P c)
    {text : String} (h : FirstText Result text) : ∀ c ∈ text.toList, P c := by
  obtain rfl | hlit | ⟨base, cs, hbase, -, hext, htext⟩ := h
  · simp
  · exact fun c hc => hP c (hlit.blankless c hc)
  · rw [htext]
    exact List.forall_mem_append.mpr
      ⟨hres base hbase, fun c hc => hP c (hext.blankless c hc)⟩

/-- **The characters of literals.** If all characters that are not white space
have a property, and those of the error marker too, no key types one without
it. -/
theorem Calculator.grown_chars (settings : Settings)
    (hmarker : ∀ c ∈ settings.errorMarker.toList, P c) (keys : List Key) :
    let e := ((Calculator.new settings).pressAll keys).calculator.entry
    Grown (fun text => ∀ c ∈ text.toList, P c) e.earlier e.last := by
  refine Grown.mono (fun text => FirstText.chars hP ?_) (grown_pressAll settings keys).2
  rintro base (⟨x, -, rfl⟩ | ⟨e, -, rfl⟩)
  · exact fun c hc => hP c (NumberText.blankless_shown x c hc)
  · exact hmarker

/-- What holds of the characters of a first literal holds of those of every
token. -/
theorem Grown.chars {earlier : List Token} {last : Token}
    (h : Grown (fun text => ∀ c ∈ text.toList, P c) earlier last) :
    ∀ t ∈ earlier.reverse ++ [last], ∀ c ∈ t.text.toList, P c := by
  have hoperator : ∀ op : Operator, ∀ c ∈ (Token.operator op).text.toList, P c := by
    intro op c hc
    rw [Token.text, Operator.text, String.toList_singleton, List.mem_singleton] at hc
    exact hc ▸ hP _ op.isBlank_symbol
  induction h with
  | first hfirst => exact List.forall_mem_singleton.mpr hfirst
  | @operator earlier text op _ _ ih =>
    rw [List.reverse_cons]
    exact List.forall_mem_append.mpr ⟨ih, List.forall_mem_singleton.mpr (hoperator op)⟩
  | @literal earlier op text _ hlit ih =>
    rw [List.reverse_cons]
    exact List.forall_mem_append.mpr
      ⟨ih, List.forall_mem_singleton.mpr fun c hc => hP c (hlit.blankless c hc)⟩

end

end Keypad
