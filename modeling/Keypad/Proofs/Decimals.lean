/-
Decimals and the doubles they are read as.

* `index_eq_nearestIndex`: reading a decimal without writing out its powers of
  ten gives what exact arithmetic gives.
* `nearestIndex_shortest`: the decimal that is written for a finite double is
  read as that double.
-/
import Keypad.Decimal.Shortest
import Keypad.Proofs.Rounding

namespace Keypad.Decimal

open Binary64

-- Powers are those of the core library, as in the definitions.
attribute [local instance (high)] instPowNat

/-! ## Order of magnitude -/

theorem digitCount_pos (n : Nat) : 0 < digitCount n := Nat.length_toDigits_pos

theorem lt_ten_pow_digitCount (n : Nat) : n < 10 ^ digitCount n :=
  (Nat.length_toDigits_le_iff (by decide) (digitCount_pos n)).mp (Nat.le_refl _)

theorem ten_pow_le_of_lt_digitCount {n k : Nat} (hn : n ≠ 0) (hk : k < digitCount n) :
    10 ^ k ≤ n := by
  by_cases h0 : k = 0
  · subst h0
    omega
  · by_contra hlt
    have := (Nat.length_toDigits_le_iff (by decide) (Nat.pos_of_ne_zero h0)).mpr
      (Nat.lt_of_not_le hlt)
    unfold digitCount at hk
    omega

theorem denominator_pos (d : Decimal) : 0 < d.denominator := Nat.pow_pos (by decide)

/-- A decimal is not below the powers of ten before its order. -/
theorem ten_pow_mul_denominator_le {d : Decimal} {k : Nat} (hd : d.digits ≠ 0)
    (hk : (k : Int) < d.order) : 10 ^ k * d.denominator ≤ d.numerator := by
  unfold order at hk
  unfold numerator denominator
  have hpos := digitCount_pos d.digits
  have hexp : k + (-d.exponent).toNat ≤ digitCount d.digits - 1 + d.exponent.toNat := by omega
  calc 10 ^ k * 10 ^ (-d.exponent).toNat = 10 ^ (k + (-d.exponent).toNat) := (Nat.pow_add ..).symm
    _ ≤ 10 ^ (digitCount d.digits - 1 + d.exponent.toNat) := Nat.pow_le_pow_right (by decide) hexp
    _ = 10 ^ (digitCount d.digits - 1) * 10 ^ d.exponent.toNat := Nat.pow_add ..
    _ ≤ d.digits * 10 ^ d.exponent.toNat :=
      Nat.mul_le_mul_right _ (ten_pow_le_of_lt_digitCount hd (by omega))

/-- A decimal is below the power of ten of its order. -/
theorem numerator_mul_ten_pow_le {d : Decimal} {k : Nat} (hk : d.order ≤ -k) :
    d.numerator * 10 ^ k ≤ d.denominator := by
  unfold order at hk
  unfold numerator denominator
  have hexp : digitCount d.digits + d.exponent.toNat + k ≤ (-d.exponent).toNat := by omega
  have hlt := Nat.le_of_lt (lt_ten_pow_digitCount d.digits)
  calc d.digits * 10 ^ d.exponent.toNat * 10 ^ k
      ≤ 10 ^ digitCount d.digits * 10 ^ d.exponent.toNat * 10 ^ k :=
        Nat.mul_le_mul_right _ (Nat.mul_le_mul_right _ hlt)
    _ = 10 ^ (digitCount d.digits + d.exponent.toNat + k) := by rw [Nat.pow_add, Nat.pow_add]
    _ ≤ 10 ^ (-d.exponent).toNat := Nat.pow_le_pow_right (by decide) hexp

/-! ## Reading -/

theorem nearestIndex_zero {d : Decimal} (h : d.digits = 0) : d.nearestIndex = 0 := by
  apply nearest_eq_zero d.denominator_pos
  rw [numerator, h, Nat.zero_mul, Nat.zero_mul]
  exact Nat.zero_le _

theorem nearestIndex_eq_infinity {d : Decimal} (hd : d.digits ≠ 0) (h : 309 < d.order) :
    d.nearestIndex = infinity := by
  have hpow : 2 ^ (1024 : Nat) ≤ 10 ^ (309 : Nat) := by decide +kernel
  have hle := ten_pow_mul_denominator_le (k := 309) hd h
  have hle' := Nat.le_trans (Nat.mul_le_mul_right d.denominator hpow) hle
  have hmul := Nat.mul_le_mul_right unitsPerOne hle'
  rw [Nat.mul_right_comm (2 ^ (1024 : Nat)) d.denominator unitsPerOne, ← units_infinity] at hmul
  exact nearest_eq_infinity d.denominator_pos hmul

theorem nearestIndex_eq_zero {d : Decimal} (h : d.order ≤ -324) : d.nearestIndex = 0 := by
  have hpow : unitsPerOne * 2 ≤ 10 ^ (324 : Nat) := by decide +kernel
  have hle := Nat.le_trans (Nat.mul_le_mul_left d.numerator hpow)
    (numerator_mul_ten_pow_le (k := 324) h)
  apply nearest_eq_zero d.denominator_pos
  rwa [Nat.mul_comm, Nat.mul_assoc]

/-- **Reading without powers of ten.** Only decimals that are far from every
finite double, or zero, are read without exact arithmetic. -/
theorem index_eq_nearestIndex (d : Decimal) : d.index = d.nearestIndex := by
  unfold index
  by_cases hzero : d.digits = 0
  · rw [if_pos hzero, nearestIndex_zero hzero]
  rw [if_neg hzero]
  by_cases hlarge : 309 < d.order
  · rw [if_pos hlarge, nearestIndex_eq_infinity hzero hlarge]
  rw [if_neg hlarge]
  by_cases hsmall : d.order ≤ -324
  · rw [if_pos hsmall, nearestIndex_eq_zero hsmall]
  · rw [if_neg hsmall]

/-! ## Writing -/

/-- Writing all digits of a double changes nothing of its value. -/
theorem numerator_exact (n : Nat) :
    (exact n).numerator * unitsPerOne = units n * (exact n).denominator := by
  have hpos : (-1074 : Int).toNat = 0 := rfl
  have hneg : (- -1074 : Int).toNat = 1074 := rfl
  have hpow : 5 ^ (1074 : Nat) * unitsPerOne = 10 ^ (1074 : Nat) := by decide +kernel
  unfold numerator denominator exact
  rw [hpos, hneg, Nat.pow_zero, Nat.mul_one, Nat.mul_assoc, hpow]

theorem nearestIndex_exact {n : Nat} (hn : n < infinity) : (exact n).nearestIndex = n := by
  rw [nearestIndex, numerator_exact]
  exact nearest_units hn (exact n).denominator_pos

theorem nearestIndex_gridPoint {n : Nat} {e : Int} {d : Decimal} (h : gridPoint? n e = some d) :
    d.nearestIndex = n := by
  unfold gridPoint? at h
  dsimp only at h
  split at h
  · next hlower =>
    cases h
    exact hlower.1
  · split at h
    · next hupper =>
      cases h
      exact hupper
    · cases h

theorem nearestIndex_descend {n : Nat} (hn : n < infinity) :
    ∀ (steps : Nat) (e : Int), (descend n steps e).nearestIndex = n
  | 0, _ => nearestIndex_exact hn
  | steps + 1, e => by
    unfold descend
    cases h : gridPoint? n e with
    | none => exact nearestIndex_descend hn steps (e - 1)
    | some d => exact nearestIndex_gridPoint h

/-- **Written and read.** What is written for a finite double is read as that
double. -/
theorem nearestIndex_shortest {n : Nat} (hn : n < infinity) : (shortest n).nearestIndex = n := by
  unfold shortest
  by_cases hzero : n = 0
  · rw [if_pos hzero, nearestIndex_zero rfl, hzero]
  · rw [if_neg hzero]
    exact nearestIndex_descend hn _ _

end Keypad.Decimal
