/-
The values of doubles.

A finite double is a sign, a significand and a power of two. Its index tells
the same: what is counted in units is its value without the sign.

* `value_eq`: the value of a finite double by its sign and its index.
* `isFinite_iff`: which indices are those of finite doubles.
-/
import Mathlib
import Keypad.Proofs.Rounding
import Keypad.Proofs.Words

namespace Keypad.Binary64

open Float.Model
open Float.Model.UnpackedFloat hiding pack unpack

-- Powers of naturals are those of the core library, as in the definitions.
attribute [local instance (high)] instPowNat

/-- The number of the given sign and magnitude. -/
def signed (negative : Bool) (q : ℚ) : ℚ := if negative then -q else q

/-- The value at an index. -/
def magnitude (n : Nat) : ℚ := (units n : ℚ) / (unitsPerOne : ℚ)

/-- The value of a double: its significand times its power of two. What is not
finite has no value, and zero stands for it. -/
def value (x : Float) : ℚ :=
  match x.toModel.unpack with
  | .finite sign significand exponent _ => (sign.apply significand : ℤ) * (2 : ℚ) ^ exponent
  | _ => 0

/-! ## Signs and indices -/

theorem toNat_word (negative : Bool) {n : Nat} (hn : n ≤ infinity) :
    (UInt64.ofNat (if negative then signBit + n else n)).toNat =
      if negative then signBit + n else n := by
  rw [UInt64.toNat_ofNat']
  apply Nat.mod_eq_of_lt
  unfold infinity binadeSize at hn
  unfold signBit
  split
  · omega
  · omega

theorem toBits_ofIndex (negative : Bool) {n : Nat} (hn : n ≤ infinity) :
    (ofIndex negative n).toBits = UInt64.ofNat (if negative then signBit + n else n) := by
  apply toBits_ofBits
  rw [toNat_word negative hn]
  unfold infinity binadeSize signBit at *
  split <;> omega

theorem index_ofIndex (negative : Bool) {n : Nat} (hn : n ≤ infinity) :
    index (ofIndex negative n) = n := by
  rw [index, toBits_ofIndex negative hn, toNat_word negative hn]
  unfold infinity binadeSize signBit at *
  split <;> omega

theorem isNegative_ofIndex (negative : Bool) {n : Nat} (hn : n ≤ infinity) :
    isNegative (ofIndex negative n) = negative := by
  rw [isNegative, toBits_ofIndex negative hn, toNat_word negative hn]
  unfold infinity binadeSize signBit at *
  cases negative with
  | false =>
    simp
    omega
  | true => simp

/-! ## Fields -/

theorem index_eq (x : Float) : index x =
    (exponentField x.toBits.toBitVec).toNat * binadeSize +
      (fractionField x.toBits.toBitVec).toNat := by
  have hlt := x.toBits.toBitVec.isLt
  rw [toNat_exponentField, toNat_fractionField, index, ← UInt64.toNat_toBitVec]
  unfold signBit binadeSize
  omega

/-- The sign bit is the sign of the value. -/
theorem apply_signField (x : Float) (m : Nat) :
    (((Sign.ofBitVec (signField x.toBits.toBitVec)).apply m : ℤ) : ℚ) =
      signed (isNegative x) m := by
  have hlt := x.toBits.toBitVec.isLt
  have hsign := toNat_signField x.toBits.toBitVec
  rw [UInt64.toNat_toBitVec] at hlt hsign
  unfold isNegative signBit
  rcases BitVec.eq_zero_or_eq_one (signField x.toBits.toBitVec) with h | h
  · have : ¬ 2 ^ (63 : Nat) ≤ x.toBits.toNat := by
      rw [h] at hsign
      simp at hsign
      omega
    simp [h, this, Sign.ofBitVec, Sign.apply, signed]
  · have : 2 ^ (63 : Nat) ≤ x.toBits.toNat := by
      rw [h] at hsign
      simp at hsign
      omega
    simp [h, this, Sign.ofBitVec, Sign.apply, signed]

theorem signed_mul (negative : Bool) (q r : ℚ) : signed negative q * r = signed negative (q * r) := by
  cases negative <;> simp [signed]

theorem cast_two_pow (n : Nat) : ((2 ^ n : Nat) : ℚ) = 2 ^ n := Nat.cast_pow 2 n

/-- One is `2 ^ 1074` units. -/
theorem cast_unitsPerOne : (unitsPerOne : ℚ) = 2 ^ (1074 : Nat) := by
  unfold unitsPerOne
  exact cast_two_pow 1074

theorem toNat_significand (f : BitVec 52) : (1#1 ++ f).toNat = binadeSize + f.toNat := by
  have hf : f.toNat < 2 ^ 52 := f.isLt
  rw [BitVec.toNat_append, ← Nat.shiftLeft_add_eq_or_of_lt hf]
  rfl

theorem unpack_toModel (x : Float) : x.toModel.unpack =
    UnpackedFloat.unpack Format.binary64 x.toBits.toBitVec := rfl

/-- A significand `m` that counts `2 ^ s` units. -/
theorem mul_two_zpow {m s : Nat} {e : ℤ} (he : e = s - (1074 : Nat)) :
    (m : ℚ) * 2 ^ e = (m * 2 ^ s : Nat) / (unitsPerOne : ℚ) := by
  rw [he, zpow_sub₀ (by norm_num), zpow_natCast, zpow_natCast, cast_unitsPerOne, Nat.cast_mul,
    cast_two_pow, mul_div_assoc]

theorem infinity_le_index {x : Float} (h : exponentField x.toBits.toBitVec = -1#11) :
    infinity ≤ index x := by
  have hfield : (exponentField x.toBits.toBitVec).toNat = 2047 := by rw [h]; rfl
  rw [index_eq, hfield, infinity]
  exact Nat.le_add_right ..

theorem index_lt_infinity {x : Float} (h : exponentField x.toBits.toBitVec ≠ -1#11) :
    index x < infinity := by
  have := exponentField_lt h
  have hfraction := (fractionField x.toBits.toBitVec).isLt
  rw [index_eq]
  unfold infinity binadeSize
  omega

/-- All doubles but the infinities and NaNs are finite. -/
theorem isFinite_iff {x : Float} : x.isFinite ↔ index x < infinity := by
  have hle := @infinity_le_index x
  have hlt := @index_lt_infinity x
  show UnpackedFloat.isFinite x.toModel.unpack = true ↔ _
  rw [unpack_toModel]
  generalize x.toBits.toBitVec = b at *
  unfold UnpackedFloat.unpack
  dsimp only
  by_cases hmax : exponentField b = -1#11
  · rw [if_pos hmax]
    split <;> simp [UnpackedFloat.isFinite, hle hmax]
  · rw [if_neg hmax]
    split
    · split <;> simp [UnpackedFloat.isFinite, hlt hmax]
    · simp [UnpackedFloat.isFinite, hlt hmax]

/-- In the lowest binade the fraction counts units. -/
theorem units_of_exponentField_eq_zero {x : Float}
    (h : (exponentField x.toBits.toBitVec).toNat = 0) :
    units (index x) = (fractionField x.toBits.toBitVec).toNat * 2 ^ 0 := by
  have hfraction : (fractionField x.toBits.toBitVec).toNat < binadeSize := BitVec.isLt _
  rw [index_eq, h]
  exact units_add (by omega) (.inl rfl)

/-- In every other binade the fraction stands behind a leading one. -/
theorem units_of_exponentField_eq_succ {x : Float} {s : Nat}
    (h : (exponentField x.toBits.toBitVec).toNat = s + 1) :
    units (index x) = (1#1 ++ fractionField x.toBits.toBitVec).toNat * 2 ^ s := by
  have hfraction : (fractionField x.toBits.toBitVec).toNat < binadeSize := BitVec.isLt _
  rw [index_eq, h, Nat.succ_mul, Nat.add_assoc, toNat_significand]
  exact units_add (by omega) (.inr (by omega))

/-- **The value of a finite double** is counted in units by its index. -/
theorem value_eq {x : Float} (h : index x < infinity) :
    value x = signed (isNegative x) (magnitude (index x)) := by
  have hsubnormal := @units_of_exponentField_eq_zero x
  have hnormal := @units_of_exponentField_eq_succ x
  have hsigned := apply_signField x
  have hmax := mt infinity_le_index (Nat.not_le_of_lt h)
  unfold value
  rw [unpack_toModel]
  generalize x.toBits.toBitVec = b at *
  unfold UnpackedFloat.unpack
  dsimp only
  rw [if_neg hmax]
  by_cases hzero : exponentField b = 0#11
  · have hfield : (exponentField b).toNat = 0 := by rw [hzero]; rfl
    have hunits := hsubnormal hfield
    rw [if_pos hzero]
    by_cases hnone : fractionField b = 0#52
    · have hfraction : (fractionField b).toNat = 0 := by rw [hnone]; rfl
      rw [dif_pos hnone, magnitude, hunits, hfraction, Nat.zero_mul, Nat.cast_zero, zero_div]
      cases isNegative x <;> simp [signed]
    · rw [dif_neg hnone]
      dsimp only
      rw [hsigned, signed_mul, mul_two_zpow (s := 0) (by rw [hfield]; rfl), ← hunits, magnitude]
  · have hfield : (exponentField b).toNat ≠ 0 := fun h0 => hzero (BitVec.eq_of_toNat_eq h0)
    obtain ⟨s, hs⟩ := Nat.exists_eq_succ_of_ne_zero hfield
    have hexp : ((exponentField b).toNat : Int) - (Format.binary64.exponentBias + (52 : Nat)) =
        s - (1074 : Nat) := by
      have hbias : Format.binary64.exponentBias = 1023 := rfl
      omega
    rw [if_neg hzero]
    dsimp only
    rw [hsigned, signed_mul, mul_two_zpow hexp, ← hnormal hs, magnitude]

end Keypad.Binary64
