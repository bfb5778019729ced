/-
The double nearest to a number.

`IsNearest` says of any rational number and any double, with nothing but
their values, that the double is the one that the number is rounded to: no
finite double is nearer, of two that are equally near it is the even one, and
from `overflow` on it is infinity.

* `nearestIndex_eq_iff`: a decimal has the index of the magnitude nearest to it.
* `isNearest_ofIndex`, `nearestIndex_of_isNearest`: with a sign or without, a
  decimal is rounded to the nearest double and to no other.
* `nearestIndex_mono`: the greater of two decimals has no lesser index.
-/
import Mathlib
import Keypad.Proofs.Decimals
import Keypad.Proofs.Values

namespace Keypad

-- Powers of naturals are those of the core library, as in the definitions.
attribute [local instance (high)] instPowNat

-- A number too great to be written out.
attribute [local irreducible] Binary64.unitsPerOne

/-- The number that a decimal is. -/
def Decimal.toRat (d : Decimal) : ℚ := d.digits * 10 ^ d.exponent

namespace Binary64

/-- The middle of the greatest finite double and `2 ^ 1024`. -/
def overflow : ℚ := 2 ^ (1024 : Nat) - 2 ^ (970 : Nat)

/-- The number `q` is rounded to the double `x`. The sign of zero does not
matter for `q = 0`. -/
structure IsNearest (q : ℚ) (x : Float) : Prop where
  le_infinity : index x ≤ infinity
  /-- Overflow, and nothing else, leads to infinity. -/
  eq_infinity_iff : index x = infinity ↔ overflow ≤ |q|
  sign : q ≠ 0 → isNegative x = decide (q < 0)
  /-- No finite double is nearer. -/
  abs_sub_le : |q| < overflow → ∀ y : Float, y.isFinite → |q - value x| ≤ |q - value y|
  /-- Where another one is equally near, the last bit of the significand is
  zero. -/
  even : |q| < overflow → ∀ y : Float, y.isFinite → value y ≠ value x →
    |q - value x| = |q - value y| → index x % 2 = 0

/-- The same for magnitudes and indices. -/
structure IsNearestIndex (q : ℚ) (n : Nat) : Prop where
  le_infinity : n ≤ infinity
  eq_infinity_iff : n = infinity ↔ overflow ≤ q
  abs_sub_le : q < overflow → ∀ m < infinity, |q - magnitude n| ≤ |q - magnitude m|
  even : q < overflow → ∀ m < infinity, m ≠ n →
    |q - magnitude n| = |q - magnitude m| → n % 2 = 0

/-! ## Magnitudes -/

theorem cast_unitsPerOne_pos : (0 : ℚ) < unitsPerOne := by
  rw [cast_unitsPerOne]
  positivity

theorem magnitude_strictMono : StrictMono magnitude := fun _ _ h =>
  div_lt_div_of_pos_right (Nat.cast_lt.mpr (units_strictMono h)) cast_unitsPerOne_pos

theorem magnitude_zero : magnitude 0 = 0 := by
  have h : units 0 = 0 := rfl
  rw [magnitude, h, Nat.cast_zero, zero_div]

theorem magnitude_nonneg (n : Nat) : 0 ≤ magnitude n := by
  have h := magnitude_strictMono.monotone (Nat.zero_le n)
  rwa [magnitude_zero] at h

/-- The greatest finite double and what would follow it lie around `overflow`. -/
theorem magnitude_add_magnitude_infinity :
    magnitude (infinity - 1) + magnitude infinity = 2 * overflow := by
  have hunits : units (infinity - 1) + units infinity + 2 * (2 ^ (970 : Nat) * unitsPerOne) =
      2 * (2 ^ (1024 : Nat) * unitsPerOne) := by decide +kernel
  have hpos := cast_unitsPerOne_pos
  rw [magnitude, magnitude, overflow, ← cast_two_pow 970, ← cast_two_pow 1024]
  generalize unitsPerOne = one at *
  generalize 2 ^ (970 : Nat) = r at *
  generalize 2 ^ (1024 : Nat) = t at *
  field_simp
  have hcast : (units (infinity - 1) + units infinity : ℚ) + 2 * (r * one) = 2 * (t * one) := by
    exact_mod_cast hunits
  linarith

theorem abs_signed (negative : Bool) (q : ℚ) : |signed negative q| = |q| := by
  cases negative <;> simp [signed]

/-! ## Uniqueness -/

/-- The nearer one of two numbers is that on the same side of their middle. -/
theorem abs_sub_le_iff_le_two_mul {q a b : ℚ} (h : a < b) : |q - b| ≤ |q - a| ↔ a + b ≤ 2 * q := by
  rw [← sq_le_sq]
  constructor
  · intro hsq
    nlinarith
  · intro hle
    nlinarith

theorem abs_sub_le_iff_two_mul_le {q a b : ℚ} (h : a < b) : |q - a| ≤ |q - b| ↔ 2 * q ≤ a + b := by
  rw [← sq_le_sq]
  constructor
  · intro hsq
    nlinarith
  · intro hle
    nlinarith

theorem IsNearestIndex.lt_infinity {q : ℚ} {n : Nat} (h : IsNearestIndex q n) (hq : q < overflow) :
    n < infinity :=
  Nat.lt_of_le_of_ne h.le_infinity (mt h.eq_infinity_iff.mp hq.not_ge)

/-- What is rounded to an index is not beyond the middle to the next one. -/
theorem IsNearestIndex.two_mul_le {q : ℚ} {n : Nat} (h : IsNearestIndex q n) (hn : n < infinity) :
    2 * q ≤ magnitude n + magnitude (n + 1) := by
  have hq : q < overflow := not_le.mp (mt h.eq_infinity_iff.mpr hn.ne)
  by_cases hlast : n + 1 = infinity
  · have hsum := magnitude_add_magnitude_infinity
    rw [← hlast, Nat.add_sub_cancel] at hsum
    linarith
  · exact (abs_sub_le_iff_two_mul_le (magnitude_strictMono n.lt_succ_self)).mp
      (h.abs_sub_le hq (n + 1) (by omega))

/-- There is only one nearest index: between two there would be one that is
nearer, since both are even. -/
theorem IsNearestIndex.unique {q : ℚ} {m n : Nat} (hm : IsNearestIndex q m)
    (hn : IsNearestIndex q n) : m = n := by
  rcases lt_or_ge q overflow with hq | hq
  · have hm' := hm.lt_infinity hq
    have hn' := hn.lt_infinity hq
    have hdist : |q - magnitude m| = |q - magnitude n| :=
      le_antisymm (hm.abs_sub_le hq n hn') (hn.abs_sub_le hq m hm')
    by_contra hne
    wlog hlt : m < n generalizing m n
    · exact this hn hm hn' hm' hdist.symm (Ne.symm hne) (by omega)
    have hmeven := hm.even hq n hn' (Ne.symm hne) hdist
    have hneven := hn.even hq m hm' hne hdist.symm
    have hbelow := magnitude_strictMono (show m < m + 1 by omega)
    have habove := magnitude_strictMono (show m + 1 < n by omega)
    have hmiddle := (abs_sub_le_iff_le_two_mul (hbelow.trans habove)).mp hdist.ge
    have hle := (abs_sub_le_iff_two_mul_le hbelow).mp (hm.abs_sub_le hq (m + 1) (by omega))
    linarith
  · rw [hm.eq_infinity_iff.mpr hq, hn.eq_infinity_iff.mpr hq]

end Binary64

open Binary64

namespace Decimal

/-! ## Decimals -/

theorem cast_ten_pow (n : Nat) : ((10 ^ n : Nat) : ℚ) = 10 ^ n := Nat.cast_pow 10 n

theorem cast_denominator_pos (d : Decimal) : (0 : ℚ) < d.denominator :=
  Nat.cast_pos.mpr d.denominator_pos

theorem ten_zpow_eq (e : ℤ) : (10 : ℚ) ^ e = 10 ^ e.toNat / 10 ^ (-e).toNat := by
  rw [← zpow_natCast, ← zpow_natCast, ← zpow_sub₀ (by norm_num), Int.toNat_sub_toNat_neg]

theorem toRat_eq (d : Decimal) : d.toRat = d.numerator / d.denominator := by
  rw [toRat, numerator, denominator, ten_zpow_eq, Nat.cast_mul, cast_ten_pow, cast_ten_pow,
    mul_div_assoc]

theorem toRat_nonneg (d : Decimal) : 0 ≤ d.toRat := by
  unfold toRat
  positivity

/-- How far a decimal is from a double. -/
theorem abs_toRat_sub (d : Decimal) (m : Nat) : |d.toRat - magnitude m| =
    Nat.dist (d.numerator * unitsPerOne) (units m * d.denominator) /
      (d.denominator * unitsPerOne : ℚ) := by
  have hb := d.cast_denominator_pos
  have hone := cast_unitsPerOne_pos
  have hsub : d.toRat - magnitude m =
      ((d.numerator * unitsPerOne : Nat) - (units m * d.denominator : Nat) : ℚ) /
        (d.denominator * unitsPerOne) := by
    rw [toRat_eq, magnitude, Nat.cast_mul, Nat.cast_mul]
    field_simp
  rw [hsub, abs_div, abs_of_pos (mul_pos hb hone)]
  congr 1
  generalize d.numerator * unitsPerOne = a
  generalize units m * d.denominator = c
  rcases Nat.le_total a c with h | h
  · rw [Nat.dist_eq_sub_of_le h, Nat.cast_sub h, abs_of_nonpos, neg_sub]
    exact sub_nonpos.mpr (Nat.cast_le.mpr h)
  · rw [Nat.dist_eq_sub_of_le_right h, Nat.cast_sub h, abs_of_nonneg]
    exact sub_nonneg.mpr (Nat.cast_le.mpr h)

theorem abs_toRat_sub_le_iff {d : Decimal} {m n : Nat} :
    |d.toRat - magnitude m| ≤ |d.toRat - magnitude n| ↔
      Nat.dist (d.numerator * unitsPerOne) (units m * d.denominator) ≤
        Nat.dist (d.numerator * unitsPerOne) (units n * d.denominator) := by
  rw [abs_toRat_sub, abs_toRat_sub, div_le_div_iff_of_pos_right, Nat.cast_le]
  exact mul_pos d.cast_denominator_pos cast_unitsPerOne_pos

/-- The middle of two doubles, and on which side of it a decimal is. -/
theorem magnitude_add_le_iff {d : Decimal} {m n : Nat} :
    magnitude m + magnitude n ≤ 2 * d.toRat ↔
      (units m + units n) * d.denominator ≤ 2 * (d.numerator * unitsPerOne) := by
  have hb := d.cast_denominator_pos
  have hone := cast_unitsPerOne_pos
  rw [toRat_eq, magnitude, magnitude, ← add_div, mul_div, div_le_div_iff₀ hone hb]
  norm_cast
  rw [Nat.mul_assoc 2]

theorem nearestIndex_eq_infinity_iff {d : Decimal} :
    d.nearestIndex = infinity ↔ overflow ≤ d.toRat := by
  rw [nearestIndex, nearest_eq_infinity_iff d.denominator_pos, ← magnitude_add_le_iff,
    magnitude_add_magnitude_infinity]
  exact mul_le_mul_iff_of_pos_left two_pos

/-- A decimal has the nearest index. -/
theorem isNearestIndex_nearestIndex (d : Decimal) : IsNearestIndex d.toRat d.nearestIndex := by
  have hb := d.denominator_pos
  have hunbounded : d.toRat < overflow →
      d.nearestIndex = unbounded (d.numerator * unitsPerOne) d.denominator := by
    intro hq
    have hne := mt nearestIndex_eq_infinity_iff.mp hq.not_ge
    unfold nearestIndex at hne ⊢
    rw [nearest_eq] at hne ⊢
    omega
  refine ⟨Nat.min_le_right _ _, nearestIndex_eq_infinity_iff, fun hq m _ => ?_,
    fun hq m _ hne htie => ?_⟩
  · rw [hunbounded hq, abs_toRat_sub_le_iff]
    exact dist_unbounded_le _ hb m
  · rw [hunbounded hq] at hne htie ⊢
    have hle := abs_toRat_sub_le_iff.mp htie.ge
    exact unbounded_even _ hb hne (Nat.le_antisymm hle (dist_unbounded_le _ hb m))

theorem nearestIndex_eq_iff {d : Decimal} {n : Nat} :
    d.nearestIndex = n ↔ IsNearestIndex d.toRat n := by
  constructor
  · rintro rfl
    exact d.isNearestIndex_nearestIndex
  · exact d.isNearestIndex_nearestIndex.unique

/-- **Greater decimals** have no lesser index. -/
theorem nearestIndex_mono {d d' : Decimal} (h : d.toRat ≤ d'.toRat) :
    d.nearestIndex ≤ d'.nearestIndex := by
  by_contra hlt
  have hn := d.isNearestIndex_nearestIndex
  have hn' := d'.isNearestIndex_nearestIndex
  generalize d.nearestIndex = n at *
  generalize d'.nearestIndex = n' at *
  have hq' : d'.toRat < overflow := by
    by_contra hq
    have := hn'.eq_infinity_iff.mpr (not_lt.mp hq)
    have := hn.le_infinity
    omega
  have hq := h.trans_lt hq'
  have hmagnitude := magnitude_strictMono (Nat.lt_of_not_le hlt)
  have hle := hn.abs_sub_le hq n' (hn'.lt_infinity hq')
  have hle' := hn'.abs_sub_le hq' n (hn.lt_infinity hq)
  rw [abs_sub_le_iff_le_two_mul hmagnitude] at hle
  rw [abs_sub_le_iff_two_mul_le hmagnitude] at hle'
  -- Both are the middle, so they are the same number.
  have heq : d.toRat = d'.toRat := by linarith
  rw [heq] at hn
  exact hlt (hn.unique hn').le

/-- What lies between two decimals of one index has that index. -/
theorem nearestIndex_between {d d' d'' : Decimal} {n : Nat} (hd : d.nearestIndex = n)
    (hd'' : d''.nearestIndex = n) (h : d.toRat ≤ d'.toRat) (h' : d'.toRat ≤ d''.toRat) :
    d'.nearestIndex = n := by
  have hle := nearestIndex_mono h
  have hge := nearestIndex_mono h'
  omega

end Decimal

namespace Binary64

/-! ## Signs -/

theorem abs_magnitude (n : Nat) : |magnitude n| = magnitude n := abs_of_nonneg (magnitude_nonneg n)

theorem abs_value {x : Float} (h : index x < infinity) : |value x| = magnitude (index x) := by
  rw [value_eq h, abs_signed, abs_magnitude]

theorem value_eq_zero_iff {x : Float} (h : index x < infinity) : value x = 0 ↔ index x = 0 := by
  rw [← abs_eq_zero, abs_value h, ← magnitude_zero, magnitude_strictMono.injective.eq_iff]

/-- The sign of a double that is not zero is the sign of its value. -/
theorem isNegative_eq {x : Float} (h : index x < infinity) (hzero : value x ≠ 0) :
    isNegative x = decide (value x < 0) := by
  have hindex := mt (value_eq_zero_iff h).mpr hzero
  have hpos := magnitude_strictMono (Nat.pos_of_ne_zero hindex)
  rw [magnitude_zero] at hpos
  rw [value_eq h]
  cases isNegative x with
  | false => simpa [signed] using hpos.le
  | true => simpa [signed] using hpos

/-- A number is as far from a double as their magnitudes are if the signs are
the same, and not nearer otherwise. -/
theorem abs_abs_sub_le {q : ℚ} {x : Float} (h : index x < infinity) :
    |(|q| - magnitude (index x))| ≤ |q - value x| := by
  rw [← abs_value h]
  exact abs_abs_sub_abs_le q (value x)

theorem abs_sub_value {q : ℚ} {x : Float} (h : index x < infinity)
    (hsign : q ≠ 0 → isNegative x = decide (q < 0)) :
    |q - value x| = |(|q| - magnitude (index x))| := by
  by_cases hzero : q = 0
  · rw [hzero, abs_zero, zero_sub, zero_sub, abs_neg, abs_neg, abs_value h, abs_magnitude]
  · have hnegative := hsign hzero
    rw [value_eq h, hnegative]
    rcases lt_or_ge q 0 with hq | hq
    · rw [decide_eq_true hq, signed, if_pos rfl, abs_of_neg hq, ← abs_neg]
      congr 1
      ring
    · rw [decide_eq_false hq.not_gt, signed, if_neg (by decide), abs_of_nonneg hq]

/-- Of two opposite doubles only one can be nearest, unless they are zero. -/
theorem index_ne_of_tie {q : ℚ} {x y : Float} (hx : index x < infinity) (hy : index y < infinity)
    (h : IsNearestIndex |q| (index x)) (hq : |q| < overflow) (hne : value y ≠ value x)
    (htie : |q - value x| = |q - value y|) : index y ≠ index x := by
  intro hindex
  have habs : |value y| = |value x| := by rw [abs_value hx, abs_value hy, hindex]
  have hopposite : value y = -value x := (abs_eq_abs.mp habs).resolve_left hne
  rw [hopposite, sub_neg_eq_add, abs_eq_abs] at htie
  have hzero : value x = 0 := by
    rcases htie with htie | htie
    · linarith
    · have hq0 : q = 0 := by linarith
      have hle := h.abs_sub_le hq 0 (by decide)
      rw [hq0, magnitude_zero, abs_zero, sub_zero, zero_sub, abs_neg, abs_magnitude,
        ← abs_value hx, abs_zero] at hle
      exact abs_nonpos_iff.mp hle
  rw [hopposite, hzero, neg_zero] at hne
  exact hne rfl

/-- Of every magnitude there is a double that is on the same side of zero. -/
theorem exists_abs_sub_value (q : ℚ) {m : Nat} (hm : m < infinity) : ∃ y : Float,
    y.isFinite ∧ index y = m ∧ |q - value y| = |(|q| - magnitude m)| := by
  have hindex : index (ofIndex (decide (q < 0)) m) = m := index_ofIndex _ hm.le
  refine ⟨ofIndex (decide (q < 0)) m, isFinite_iff.mpr (by rwa [hindex]), hindex, ?_⟩
  rw [abs_sub_value (by rwa [hindex]) fun _ => isNegative_ofIndex _ hm.le, hindex]

theorem IsNearest.isNearestIndex {q : ℚ} {x : Float} (h : IsNearest q x) :
    IsNearestIndex |q| (index x) := by
  have hfinite : |q| < overflow → index x < infinity := fun hq =>
    Nat.lt_of_le_of_ne h.le_infinity (mt h.eq_infinity_iff.mp hq.not_ge)
  refine ⟨h.le_infinity, h.eq_infinity_iff, fun hq m hm => ?_, fun hq m hm hne htie => ?_⟩
  · obtain ⟨y, hy, -, hdist⟩ := exists_abs_sub_value q hm
    have hle := h.abs_sub_le hq y hy
    rwa [abs_sub_value (hfinite hq) h.sign, hdist] at hle
  · obtain ⟨y, hy, hindex, hdist⟩ := exists_abs_sub_value q hm
    refine h.even hq y hy (fun hvalue => hne ?_) ?_
    · have habs := congrArg abs hvalue
      rw [abs_value (isFinite_iff.mp hy), abs_value (hfinite hq), hindex] at habs
      exact magnitude_strictMono.injective habs
    · rw [abs_sub_value (hfinite hq) h.sign, hdist, htie]

theorem IsNearestIndex.isNearest {q : ℚ} {x : Float} (h : IsNearestIndex |q| (index x))
    (hsign : q ≠ 0 → isNegative x = decide (q < 0)) : IsNearest q x := by
  refine ⟨h.le_infinity, h.eq_infinity_iff, hsign, fun hq y hy => ?_, fun hq y hy hne htie => ?_⟩
  · rw [abs_sub_value (h.lt_infinity hq) hsign]
    exact (h.abs_sub_le hq _ (isFinite_iff.mp hy)).trans (abs_abs_sub_le (isFinite_iff.mp hy))
  · have hx := h.lt_infinity hq
    have hy' := isFinite_iff.mp hy
    have hle := h.abs_sub_le hq _ hy'
    have hge := abs_abs_sub_le (q := q) hy'
    rw [← htie, abs_sub_value hx hsign] at hge
    exact h.even hq _ hy' (index_ne_of_tie hx hy' h hq hne htie) (le_antisymm hle hge)

/-- A decimal with a sign is rounded to the double with that sign. -/
theorem isNearest_ofIndex (negative : Bool) (d : Decimal) :
    IsNearest (signed negative d.toRat) (ofIndex negative d.nearestIndex) := by
  have hle : d.nearestIndex ≤ infinity := d.isNearestIndex_nearestIndex.le_infinity
  apply IsNearestIndex.isNearest
  · rw [abs_signed, abs_of_nonneg d.toRat_nonneg, index_ofIndex _ hle]
    exact d.isNearestIndex_nearestIndex
  intro hzero
  rw [isNegative_ofIndex _ hle]
  have hnonneg := d.toRat_nonneg
  cases negative with
  | false =>
    symm
    simpa [signed] using hnonneg
  | true =>
    symm
    have hne : d.toRat ≠ 0 := by simpa [signed] using hzero
    simpa [signed] using lt_of_le_of_ne hnonneg hne.symm

/-- And to no other double. -/
theorem nearestIndex_of_isNearest {negative : Bool} {d : Decimal} {x : Float}
    (h : IsNearest (signed negative d.toRat) x) : d.nearestIndex = index x := by
  have hindex := h.isNearestIndex
  rw [abs_signed, abs_of_nonneg d.toRat_nonneg] at hindex
  exact Decimal.nearestIndex_eq_iff.mpr hindex

end Binary64

end Keypad
