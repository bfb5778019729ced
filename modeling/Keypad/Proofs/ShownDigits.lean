/-
What is shown for a finite double.

* `isPlain_parts`: the shortest decimal is laid out without a zero that does
  not count.
* `shown_shortest`: what is shown for a double is the shortest decimal that is
  rounded to it, and the nearest of the shortest ones.
-/
import Mathlib
import Keypad.Proofs.ShortestDigits

namespace Keypad

open Binary64

-- Powers of naturals are those of the core library, as in the definitions.
attribute [local instance (high)] instPowNat

namespace Decimal

open Numeral (digitsValue)

/-- The decimal that digits before and after a point spell. -/
def spelled (whole fraction : List Char) : Decimal :=
  ⟨digitsValue (whole ++ fraction), -(fraction.length : Int)⟩

/-- Digits before and after a point with no zero in front but a single one, and
none at the end. -/
structure IsPlain (whole fraction : List Char) : Prop where
  whole_digits : Digits whole
  whole_ne_nil : whole ≠ []
  fraction_digits : Digits fraction
  whole_head : whole = ['0'] ∨ whole.head? ≠ some '0'
  fraction_last : fraction.getLast? ≠ some '0'

/-! ## Layout -/

/-- No number but zero begins with a zero. -/
theorem head?_toDigits_ne {n : Nat} (hn : n ≠ 0) : (Nat.toDigits 10 n).head? ≠ some '0' := by
  induction n using Nat.strongRecOn with
  | ind n ih =>
    by_cases h : n < 10
    · rw [Nat.toDigits_of_lt_base h]
      simpa using hn
    · rw [Nat.toDigits_of_base_le (by decide) (Nat.le_of_not_lt h),
        List.head?_append_of_ne_nil _ Nat.toDigits_ne_nil]
      exact ih (n / 10) (by omega) (by omega)

theorem getLast?_toDigits_ne {n : Nat} (hn : n % 10 ≠ 0) :
    (Nat.toDigits 10 n).getLast? ≠ some '0' := by
  obtain ⟨ds, hds⟩ := exists_toDigits_eq_concat n
  rw [hds, List.getLast?_concat]
  simpa using hn

/-- **Layout.** A decimal whose last digit is not zero has no zeros but those
that place the point. -/
theorem isPlain_parts {d : Decimal} (hd : d.digits % 10 ≠ 0) : IsPlain d.parts.1 d.parts.2 := by
  obtain ⟨hwhole, hne, hfraction⟩ := d.digits_parts
  have hhead : (Nat.toDigits 10 d.digits).head? ≠ some '0' := head?_toDigits_ne (by omega)
  have hlast := getLast?_toDigits_ne hd
  refine ⟨hwhole, hne, hfraction, ?_, ?_⟩
  · unfold parts
    dsimp only
    split
    · rw [List.head?_append_of_ne_nil _ Nat.toDigits_ne_nil]
      exact .inr hhead
    · split
      · next horder =>
        rw [List.head?_take, if_neg (by omega)]
        exact .inr hhead
      · exact .inl rfl
  · unfold parts
    dsimp only
    split
    · simp
    · split
      · next hexp horder =>
        have hlt : ¬ (Nat.toDigits 10 d.digits).length ≤ d.order.toNat := by
          unfold order digitCount at horder ⊢
          omega
        rw [List.getLast?_drop, if_neg hlt]
        exact hlast
      · rw [List.getLast?_append_of_ne_nil _ Nat.toDigits_ne_nil]
        exact hlast

theorem toRat_spelled_parts (d : Decimal) : (spelled d.parts.1 d.parts.2).toRat = d.toRat := by
  rw [spelled, ofParts_parts]
  split
  · next hexp =>
    rw [toRat_mul_ten_pow, zero_add, Int.toNat_of_nonneg hexp]
  · rfl

theorem significance_spelled_parts (d : Decimal) :
    (spelled d.parts.1 d.parts.2).significance = d.significance := by
  rw [spelled, ofParts_parts]
  split
  · exact significance_mul_ten_pow d.digits _ 0 d.exponent
  · rfl

end Decimal

namespace NumberText

open Decimal

/-- The digits are those of the shortest decimal that is rounded to the double
`x`, and of the nearest of these. -/
structure IsShortestText (x : Float) (whole fraction : List Char) : Prop where
  isPlain : IsPlain whole fraction
  isNearest : IsNearest (signed (decide (value x < 0)) (spelled whole fraction).toRat) x
  significance_le : ∀ (negative : Bool) (d : Decimal), IsNearest (signed negative d.toRat) x →
    (spelled whole fraction).significance ≤ d.significance
  abs_sub_le : ∀ (negative : Bool) (d : Decimal), IsNearest (signed negative d.toRat) x →
    d.significance = (spelled whole fraction).significance →
      |signed (decide (value x < 0)) (spelled whole fraction).toRat - value x| ≤
        |signed negative d.toRat - value x|

theorem isShortestText_parts {x : Float} (h : index x < infinity) (hzero : value x ≠ 0) :
    IsShortestText x (shortest (index x)).parts.1 (shortest (index x)).parts.2 := by
  have hindex := mt (value_eq_zero_iff h).mpr hzero
  have hshortest := isShortest_shortest h hindex
  have hnearest := isNearest_ofIndex (decide (value x < 0)) (shortest (index x))
  rw [hshortest.nearestIndex_eq, ← isNegative_eq h hzero, ofIndex_index,
    isNegative_eq h hzero] at hnearest
  have hdist := abs_sub_value h hnearest.sign
  rw [abs_signed, abs_of_nonneg (toRat_nonneg _)] at hdist
  refine ⟨isPlain_parts hshortest.digits_mod_ne, ?_, ?_, ?_⟩
  · rwa [toRat_spelled_parts]
  · intro negative d hd
    rw [significance_spelled_parts]
    exact hshortest.significance_le hindex (nearestIndex_of_isNearest hd)
  · intro negative d hd heq
    have hle := abs_abs_sub_le (q := signed negative d.toRat) h
    rw [significance_spelled_parts] at heq
    rw [toRat_spelled_parts, hdist]
    rw [abs_signed, abs_of_nonneg d.toRat_nonneg] at hle
    exact (hshortest.abs_sub_le_of_significance_eq hindex h (nearestIndex_of_isNearest hd) heq).trans
      hle

/-- **What is shown for a finite double** is the shortest decimal that is
rounded to it, without an exponent and with a minus in front if the double is
negative. -/
theorem shown_shortest {x : Float} (hfinite : x.isFinite) (hzero : value x ≠ 0) :
    ∃ whole fraction : List Char, IsShortestText x whole fraction ∧
      shown x = String.ofList
        ((if value x < 0 then ['-'] else []) ++ joinParts whole fraction) := by
  have h := isFinite_iff.mp hfinite
  have hindex := mt (value_eq_zero_iff h).mpr hzero
  have hminus : display.showsMinus x = decide (value x < 0) := by
    rw [← isNegative_eq h hzero]
    simp [Style.showsMinus, hindex]
  refine ⟨_, _, isShortestText_parts h hzero, ?_⟩
  rw [shown, write, writeChars, if_neg h.not_gt, if_neg h.ne, hminus]
  simp only [decide_eq_true_eq]
  rfl

/-- A tenth. -/
theorem shown_shortest_tenth : (0.1 : Float).isFinite ∧ value 0.1 ≠ 0 ∧
    ∃ whole fraction : List Char, IsShortestText 0.1 whole fraction ∧
      shown 0.1 = String.ofList
        ((if value 0.1 < 0 then ['-'] else []) ++ joinParts whole fraction) := by
  have hfinite : (0.1 : Float).isFinite := by decide +kernel
  have hzero : value 0.1 ≠ 0 := mt (value_eq_zero_iff (isFinite_iff.mp hfinite)).mp (by decide +kernel)
  exact ⟨hfinite, hzero, shown_shortest hfinite hzero⟩

end NumberText

end Keypad
