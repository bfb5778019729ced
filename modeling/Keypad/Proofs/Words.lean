/-
Doubles and the words that spell them.

A word is a sign bit, 11 bits of exponent and 52 of fraction. Every word but
those of the NaNs is the word of exactly one double, and all NaNs are one
double.

* `pack_unpack`: taking a word apart and putting it together gives it back.
* `toBits_ofBits`, `ofBits_toBits`: words and doubles determine each other.
* `ofIndex_index`: so do doubles and a sign with an index, and `eq_nan`: beyond
  infinity there is only one double.
-/
import Mathlib
import Keypad.Binary64

namespace Keypad.Binary64

open Float.Model
open Float.Model.UnpackedFloat hiding pack unpack

/-! ## Fields -/

/-- The sign bit of a word. -/
abbrev signField (b : BitVec 64) : BitVec 1 := @unpackSign Format.binary64 b

/-- The exponent bits of a word. -/
abbrev exponentField (b : BitVec 64) : BitVec 11 := @unpackExponent Format.binary64 b

/-- The fraction bits of a word. -/
abbrev fractionField (b : BitVec 64) : BitVec 52 := @unpackMantissa Format.binary64 b

theorem toNat_signField (b : BitVec 64) : (signField b).toNat = b.toNat / 2 ^ 63 := by
  have := b.isLt
  simp [signField, unpackSign, Nat.shiftRight_eq_div_pow]
  omega

theorem toNat_exponentField (b : BitVec 64) :
    (exponentField b).toNat = b.toNat / 2 ^ 52 % 2 ^ 11 := by
  simp [exponentField, unpackExponent, Nat.shiftRight_eq_div_pow]

theorem toNat_fractionField (b : BitVec 64) : (fractionField b).toNat = b.toNat % 2 ^ 52 := by
  simp [fractionField, unpackMantissa]

theorem toNat_packComponents (s : Sign) (e : BitVec 11) (m : BitVec 52) :
    (packComponents Format.binary64 s e m).toNat =
      s.toBitVec.toNat * 2 ^ 63 + e.toNat * 2 ^ 52 + m.toNat := by
  have hm : m.toNat < 2 ^ 52 := m.isLt
  have he : e.toNat < 2 ^ 11 := e.isLt
  unfold packComponents
  rw [BitVec.toNat_append, BitVec.toNat_append, ← Nat.shiftLeft_add_eq_or_of_lt hm,
    ← Nat.shiftLeft_add_eq_or_of_lt he]
  simp only [Nat.shiftLeft_eq]
  omega

theorem toBitVec_ofBitVec (v : BitVec 1) : (Sign.ofBitVec v).toBitVec = v := by
  rcases BitVec.eq_zero_or_eq_one v with rfl | rfl <;> rfl

/-- A word is its three fields. -/
theorem packComponents_fields (b : BitVec 64) :
    packComponents Format.binary64 (Sign.ofBitVec (signField b)) (exponentField b)
      (fractionField b) = b := by
  apply BitVec.eq_of_toNat_eq
  have := b.isLt
  rw [toNat_packComponents, toBitVec_ofBitVec, toNat_fractionField, toNat_exponentField,
    toNat_signField]
  omega

/-! ## Words of doubles -/

theorem mantissaBits_eq : Format.binary64.mantissaBits = 53 := rfl

/-- The significand of a normal double has 53 bits, and its fraction is what
follows the leading one. -/
theorem log2_significand (m : BitVec 52) : (1#1 ++ m).toNat.log2 = 52 ∧
    BitVec.ofNat 52 (1#1 ++ m).toNat = m := by
  have hm : m.toNat < 2 ^ 52 := m.isLt
  have hval : (1#1 ++ m).toNat = 2 ^ 52 + m.toNat := by
    rw [BitVec.toNat_append, ← Nat.shiftLeft_add_eq_or_of_lt hm]
    simp [Nat.shiftLeft_eq]
  constructor
  · rw [hval, Nat.log2_eq_iff (by omega)]
    omega
  · apply BitVec.eq_of_toNat_eq
    rw [hval, BitVec.toNat_ofNat]
    omega

theorem exponentField_lt {b : BitVec 64} (hmax : exponentField b ≠ -1#11) :
    (exponentField b).toNat < 2047 := by
  have := (exponentField b).isLt
  have : (exponentField b).toNat ≠ 2047 := fun he => hmax (BitVec.eq_of_toNat_eq he)
  omega

/-- In the lowest binade the significand is the fraction, which is shorter
than 53 bits: no leading one is taken off it. -/
theorem pack_unpack_subnormal {b : BitVec 64} (hzero : exponentField b = 0#11) :
    UnpackedFloat.pack Format.binary64 (UnpackedFloat.unpack Format.binary64 b) = b := by
  have hfields := packComponents_fields b
  have hmax : exponentField b ≠ -1#11 := by
    rw [hzero]
    decide
  unfold UnpackedFloat.unpack
  dsimp only
  rw [if_neg hmax, if_pos hzero]
  rw [hzero] at hfields
  by_cases hfrac : fractionField b = 0#52
  · rw [dif_pos hfrac, UnpackedFloat.pack, packedZero]
    rwa [hfrac] at hfields
  · have hne : (fractionField b).toNat ≠ 0 := fun h0 => hfrac (BitVec.eq_of_toNat_eq h0)
    have hlog : (fractionField b).toNat.log2 < 52 :=
      (Nat.log2_lt hne).mpr (fractionField b).isLt
    have hshort : (fractionField b).toNat.log2 + 1 ≠ Format.binary64.mantissaBits := by
      rw [mantissaBits_eq]
      omega
    have hval : (exponentField b).toNat = 0 := by
      rw [hzero]
      rfl
    rw [dif_neg hfrac, UnpackedFloat.pack]
    dsimp only
    rw [hval, if_neg (by decide), if_neg hshort]
    rwa [BitVec.ofNat_toNat, BitVec.setWidth_eq]

/-- In every other binade the leading one is put in front and taken off. -/
theorem pack_unpack_normal {b : BitVec 64} (hmax : exponentField b ≠ -1#11)
    (hzero : exponentField b ≠ 0#11) :
    UnpackedFloat.pack Format.binary64 (UnpackedFloat.unpack Format.binary64 b) = b := by
  have hfields := packComponents_fields b
  have hlt := exponentField_lt hmax
  obtain ⟨hlog, hm⟩ := log2_significand (fractionField b)
  have hexp : (((exponentField b).toNat : Int) - (Format.binary64.exponentBias + (52 : Nat))
      + Format.binary64.exponentBias + (52 : Nat)).toNat = (exponentField b).toNat := by
    omega
  unfold UnpackedFloat.unpack
  dsimp only
  rw [if_neg hmax, if_neg hzero, UnpackedFloat.pack]
  dsimp only
  rw [hlog, hm, hexp, if_neg (by omega), if_pos mantissaBits_eq.symm]
  rwa [BitVec.ofNat_toNat, BitVec.setWidth_eq]

/-- **Taking a word apart and putting it together.** The word of a NaN comes
back as the one NaN that is a value; every other word comes back as it was. -/
theorem pack_unpack {b : BitVec 64} (h : exponentField b = -1#11 → fractionField b = 0#52) :
    UnpackedFloat.pack Format.binary64 (UnpackedFloat.unpack Format.binary64 b) = b := by
  by_cases hmax : exponentField b = -1#11
  · have hfields := packComponents_fields b
    rw [hmax, h hmax] at hfields
    unfold UnpackedFloat.unpack
    dsimp only
    rwa [if_pos hmax, if_pos (h hmax), UnpackedFloat.pack, packedInfinity]
  · by_cases hzero : exponentField b = 0#11
    · exact pack_unpack_subnormal hzero
    · exact pack_unpack_normal hmax hzero

/-- Whether the fields of a word are those of a NaN. -/
def IsNaNWord (b : BitVec 64) : Prop := exponentField b = -1#11 ∧ fractionField b ≠ 0#52

theorem isNaNWord_iff {b : BitVec 64} : IsNaNWord b ↔ infinity < b.toNat % signBit := by
  have he := toNat_exponentField b
  have hf := toNat_fractionField b
  have hmax : exponentField b = -1#11 ↔ (exponentField b).toNat = 2047 :=
    ⟨fun h => by rw [h]; rfl, fun h => BitVec.eq_of_toNat_eq h⟩
  have hzero : fractionField b = 0#52 ↔ (fractionField b).toNat = 0 :=
    ⟨fun h => by rw [h]; rfl, fun h => BitVec.eq_of_toNat_eq h⟩
  rw [IsNaNWord, ne_eq, hmax, hzero, he, hf]
  unfold infinity binadeSize signBit
  omega

/-- Exactly the words of NaNs are taken apart to a NaN. -/
theorem unpack_eq_notANumber_iff {b : BitVec 64} :
    UnpackedFloat.unpack Format.binary64 b = .notANumber ↔ IsNaNWord b := by
  unfold UnpackedFloat.unpack IsNaNWord
  dsimp only
  constructor
  · intro h
    split at h
    · next hmax =>
      split at h
      · cases h
      · next hne => exact ⟨hmax, hne⟩
    · split at h
      · split at h <;> cases h
      · cases h
  · rintro ⟨hmax, hne⟩
    rw [if_pos hmax, if_neg hne]

/-- The word of every double but a NaN is that double's own. -/
theorem toBits_ofBits {w : UInt64} (h : ¬ infinity < w.toNat % signBit) :
    (Float.ofBits w).toBits = w := by
  apply UInt64.toBitVec_inj.mp
  refine pack_unpack fun hmax => ?_
  by_cases hzero : fractionField w.toBitVec = 0#52
  · exact hzero
  · exact absurd (isNaNWord_iff.mp ⟨hmax, hzero⟩) h

/-- All words of a NaN spell the same double. -/
theorem ofBits_of_isNaNWord {w : UInt64} (h : infinity < w.toNat % signBit) :
    Float.ofBits w = nan := by
  have hw : UnpackedFloat.unpack Format.binary64 w.toBitVec = .notANumber :=
    unpack_eq_notANumber_iff.mpr (isNaNWord_iff.mpr h)
  have hnan : UnpackedFloat.unpack Format.binary64
      (UInt64.ofNat (infinity + quietBit)).toBitVec = .notANumber :=
    unpack_eq_notANumber_iff.mpr (isNaNWord_iff.mpr (by decide))
  unfold nan ofIndex
  simp only [Bool.false_eq_true, if_false, Float.ofBits, Float.Model.ofBits, hw, hnan]

theorem toBits_inj {x y : Float} (h : x.toBits = y.toBits) : x = y := by
  obtain ⟨⟨w, hw⟩⟩ := x
  obtain ⟨⟨v, hv⟩⟩ := y
  cases (h : w = v)
  rfl

/-- Every double is spelled by its own word: the word of a NaN is always the
same one. -/
theorem ofBits_toBits (x : Float) : Float.ofBits x.toBits = x := by
  apply toBits_inj
  by_cases h : infinity < x.toBits.toNat % signBit
  · have hnan := isNaNWord_iff.mpr h
    have hx : x.toBits.toBitVec = packedNaN Format.binary64 :=
      x.toModel.valid.eq_packedNaN hnan.1 hnan.2
    apply UInt64.toBitVec_inj.mp
    show UnpackedFloat.pack Format.binary64
      (UnpackedFloat.unpack Format.binary64 x.toBits.toBitVec) = _
    rw [unpack_eq_notANumber_iff.mpr hnan, hx, UnpackedFloat.pack]
  · exact toBits_ofBits h

/-! ## Signs and indices -/

theorem toNat_toBits (x : Float) :
    x.toBits.toNat = if isNegative x then signBit + index x else index x := by
  have := x.toBits.toNat_lt
  unfold isNegative index signBit
  split <;> simp_all <;> omega

/-- A double is given by its sign and its index. -/
theorem ofIndex_index (x : Float) : ofIndex (isNegative x) (index x) = x := by
  rw [ofIndex, ← toNat_toBits, UInt64.ofNat_toNat, ofBits_toBits]

/-- A NaN is what lies beyond infinity. -/
theorem isNaN_iff {x : Float} : x.isNaN ↔ infinity < index x := by
  rw [index, ← UInt64.toNat_toBitVec, ← isNaNWord_iff, ← unpack_eq_notANumber_iff]
  show (UnpackedFloat.unpack Format.binary64 x.toBits.toBitVec).isNaN = true ↔ _
  generalize UnpackedFloat.unpack Format.binary64 x.toBits.toBitVec = u
  cases u <;> simp [UnpackedFloat.isNaN]

theorem isNaN_ofBits_iff {w : UInt64} :
    (Float.ofBits w).isNaN ↔ infinity < w.toNat % signBit := by
  by_cases h : infinity < w.toNat % signBit
  · have hnan : nan.isNaN = true := by decide +kernel
    rw [ofBits_of_isNaNWord h]
    exact ⟨fun _ => h, fun _ => hnan⟩
  · rw [isNaN_iff, index, toBits_ofBits h]

/-- There is only one NaN. -/
theorem eq_nan {x : Float} (h : infinity < index x) : x = nan := by
  rw [← ofBits_toBits x]
  exact ofBits_of_isNaNWord h

end Keypad.Binary64
