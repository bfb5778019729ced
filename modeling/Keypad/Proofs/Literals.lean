/-
Texts of digits, and how they are read.

* `decimal?_append`: digits, with a point among them or without, and what
  follows them are read apart.
* `ofChars?_of_isMantissa`: such digits are a numeral as a whole, whether a minus
  stands in front or not.
* `leading?_of_ofChars?`: a text that is a numeral as a whole is read as a
  whole.
-/
import Mathlib.Data.List.TakeDrop
import Keypad.NumberText

namespace Keypad

/-- Nothing but decimal digits. -/
def Digits (cs : List Char) : Prop := ∀ c ∈ cs, c.isDigit = true

namespace Digits

variable {ds es : List Char}

theorem nil : Digits [] := by simp [Digits]

theorem append (hd : Digits ds) (he : Digits es) : Digits (ds ++ es) := by
  intro c hc
  rcases List.mem_append.mp hc with hc | hc
  · exact hd c hc
  · exact he c hc

theorem take (h : Digits ds) (n : Nat) : Digits (ds.take n) :=
  fun c hc => h c (List.mem_of_mem_take hc)

theorem drop (h : Digits ds) (n : Nat) : Digits (ds.drop n) :=
  fun c hc => h c (List.mem_of_mem_drop hc)

theorem toDigits (n : Nat) : Digits (Nat.toDigits 10 n) :=
  fun _ hc => Nat.isDigit_of_mem_toDigits (by decide) (by decide) hc

theorem zeros (n : Nat) : Digits (List.replicate n '0') := by
  intro c hc
  rw [List.eq_of_mem_replicate hc]
  rfl

/-- Digits are split off up to the first character that is none. -/
theorem span_append (h : Digits ds) (rest : List Char) (hrest : rest.takeWhile Char.isDigit = []) :
    (ds ++ rest).span Char.isDigit = (ds, rest) := by
  have hdrop := @List.takeWhile_append_dropWhile _ Char.isDigit rest
  rw [hrest, List.nil_append] at hdrop
  rw [List.span_eq_takeWhile_dropWhile, List.takeWhile_append_of_pos h,
    List.dropWhile_append_of_pos h, hrest, List.append_nil, hdrop]

end Digits

namespace Numeral

open Decimal (joinParts)

/-- Digits with a point among them or without, by the digits before the point
and those after it. There is a digit at least. -/
inductive IsMantissa : List Char → List Char → List Char → Prop
  | whole {ds : List Char} : Digits ds → ds ≠ [] → IsMantissa ds ds []
  | point {ds fs : List Char} : Digits ds → Digits fs → ds ++ fs ≠ [] →
      IsMantissa (ds ++ '.' :: fs) ds fs

/-- What a text begins with that cannot belong to the digits before it. -/
def EndsMantissa (x : List Char) : Prop := ∀ c ∈ x.head?, c.isDigit = false ∧ c ≠ '.'

theorem EndsMantissa.takeWhile {x : List Char} (h : EndsMantissa x) :
    x.takeWhile Char.isDigit = [] := by
  cases x with
  | nil => rfl
  | cons c x => rw [List.takeWhile_cons_of_neg (by simp [(h c rfl).1])]

theorem isMantissa_joinParts {whole fraction : List Char} (hw : Digits whole) (hne : whole ≠ [])
    (hf : Digits fraction) : IsMantissa (joinParts whole fraction) whole fraction := by
  unfold joinParts
  by_cases h : fraction = []
  · subst h
    exact .whole hw hne
  · rw [if_neg h]
    exact .point hw hf (by simp [hne])

/-- **A decimal** is the number of its digits, the ones after the point and the
exponent taken into account. -/
theorem decimal?_append {m ds fs x : List Char} (h : IsMantissa m ds fs) (hx : EndsMantissa x) :
    decimal? (m ++ x) =
      (exponent? x).map fun e => ⟨digitsValue (ds ++ fs), e - (fs.length : Int)⟩ := by
  cases h with
  | whole hds hne =>
    have hfraction : splitFraction x = ([], x) := by
      unfold splitFraction
      split
      · next rest => exact absurd rfl (hx '.' rfl).2
      · rfl
    simp only [decimal?, hds.span_append x hx.takeWhile, hfraction]
    rw [if_neg (by simp [hne]), List.append_nil]
  | point hds hfs hne =>
    have hspan := hds.span_append ('.' :: (fs ++ x)) rfl
    rw [List.append_assoc, List.cons_append]
    simp only [decimal?, hspan, splitFraction, hfs.span_append x hx.takeWhile]
    rw [if_neg fun hnil => hne (by rw [hnil.1, hnil.2]; rfl)]

theorem toLower_of_isDigit {c : Char} (h : c.isDigit = true) : c.toLower = c := by
  have hle : c.val ≤ '9'.val := by
    rw [Char.isDigit, Bool.and_eq_true, decide_eq_true_eq, decide_eq_true_eq] at h
    exact h.2
  unfold Char.toLower
  rw [dif_neg]
  rintro ⟨hge, -⟩
  exact absurd (UInt32.le_trans hge hle) (by decide)

/-- What begins with a digit is no word. -/
theorem magnitude?_of_isDigit {c : Char} {cs : List Char} (h : c.isDigit = true) :
    magnitude? (c :: cs) = (decimal? (c :: cs)).map .decimal := by
  have hword : ∀ (l : Char) ls, l.isDigit = false → (c :: cs).map Char.toLower ≠ l :: ls := by
    intro l ls hl heq
    rw [List.map_cons, toLower_of_isDigit h] at heq
    cases heq
    rw [h] at hl
    contradiction
  unfold magnitude?
  dsimp only
  rw [if_neg (not_or.mpr ⟨hword 'i' _ rfl, hword 'i' _ rfl⟩), if_neg (hword 'n' _ rfl)]

theorem splitSign_of_isDigit {c : Char} {cs : List Char} (h : c.isDigit = true) :
    splitSign (c :: cs) = (false, c :: cs) := by
  unfold splitSign
  split
  · next heq => cases heq; contradiction
  · next heq => cases heq; contradiction
  · rfl

/-- **Digits are a numeral as a whole**, with a point among them or without,
and with a minus in front or without. -/
theorem ofChars?_of_isMantissa {m whole fraction : List Char} (negative : Bool)
    (h : IsMantissa m whole fraction) (hne : whole ≠ []) :
    ofChars? ((if negative then ['-'] else []) ++ m) =
      some ⟨negative, .decimal ⟨digitsValue (whole ++ fraction), -(fraction.length : Int)⟩⟩ := by
  obtain ⟨c, cs, rfl, hc⟩ : ∃ c cs, m = c :: cs ∧ c.isDigit = true := by
    obtain ⟨c, cs, rfl⟩ := List.exists_cons_of_ne_nil hne
    cases h with
    | whole hds _ => exact ⟨c, cs, rfl, hds c (by simp)⟩
    | point hds _ _ => exact ⟨c, _, rfl, hds c (by simp)⟩
  have hdecimal := decimal?_append (x := []) h (by simp [EndsMantissa])
  rw [List.append_nil] at hdecimal
  have hmagnitude := @magnitude?_of_isDigit c cs hc
  rw [hdecimal] at hmagnitude
  cases negative with
  | false => simp [ofChars?, splitSign_of_isDigit hc, hmagnitude, exponent?]
  | true => simp [ofChars?, splitSign, hmagnitude, exponent?]

/-- A text that is a numeral as a whole is read as a whole. -/
theorem leading?_of_ofChars? {cs : List Char} {n : Numeral} (h : ofChars? cs = some n) :
    leading? cs = some n := by
  unfold leading?
  cases hlen : cs.length with
  | zero =>
    rw [List.length_eq_zero_iff.mp hlen] at h
    cases h
  | succ k =>
    rw [leadingWithin?, ← hlen, List.take_length, h]
    rfl

end Numeral

end Keypad
