/-
Doubles as text, and the text read again.

* `readChars_positional`: a decimal without an exponent is read as the double
  nearest to it.
* `read_shown`: what the display shows for a double is read as that double,
  only that negative zero loses its sign.
* `toBits_read_shown`: the same for the words of doubles.
-/
import Keypad.Proofs.Decimals
import Keypad.Proofs.Literals
import Keypad.Proofs.Words

namespace Keypad

namespace Decimal

open Numeral (digitsValue)

-- Powers are those of the core library, as in the definitions.
attribute [local instance (high)] instPowNat

/-! ## Digits around the point -/

/-- Both parts are digits, and there is a digit before the point. -/
theorem digits_parts (d : Decimal) : Digits d.parts.1 ∧ d.parts.1 ≠ [] ∧ Digits d.parts.2 := by
  have hds := Digits.toDigits d.digits
  have hne := @Nat.toDigits_ne_nil d.digits 10
  unfold parts
  dsimp only
  split
  · exact ⟨hds.append (.zeros _), by simp [hne], .nil⟩
  · split
    · next horder =>
      refine ⟨hds.take _, ?_, hds.drop _⟩
      rw [ne_eq, List.take_eq_nil_iff, not_or]
      exact ⟨by omega, hne⟩
    · exact ⟨.zeros 1, by simp, (Digits.zeros _).append hds⟩

theorem digitsValue_toDigits (n : Nat) : digitsValue (Nat.toDigits 10 n) = n :=
  Nat.ofDigitChars_ten_toDigits

theorem digitsValue_zeros_append (n : Nat) (ds : List Char) :
    digitsValue (List.replicate n '0' ++ ds) = digitsValue ds := by
  rw [digitsValue, Nat.ofDigitChars_append, Nat.ofDigitChars_replicate_zero, Nat.mul_zero]
  rfl

/-- The digits of both parts and the place of the point give the decimal
again; only a whole number has its exponent written out. -/
theorem ofParts_parts (d : Decimal) :
    (⟨digitsValue (d.parts.1 ++ d.parts.2), -(d.parts.2.length : Int)⟩ : Decimal) =
      if 0 ≤ d.exponent then ⟨d.digits * 10 ^ d.exponent.toNat, 0⟩ else d := by
  obtain ⟨n, e⟩ := d
  unfold parts order digitCount
  dsimp only
  by_cases hwhole : 0 ≤ e
  · rw [if_pos hwhole, if_pos hwhole, List.append_nil, digitsValue, Nat.ofDigitChars_append,
      Nat.ofDigitChars_replicate_zero, Nat.ofDigitChars_ten_toDigits, Nat.mul_comm]
    rfl
  rw [if_neg hwhole, if_neg hwhole]
  by_cases hinside : 0 < ((Nat.toDigits 10 n).length : Int) + e
  · rw [if_pos hinside, List.take_append_drop, digitsValue_toDigits, List.length_drop]
    congr 1
    omega
  · rw [if_neg hinside]
    have hvalue : ∀ k, digitsValue (['0'] ++ (List.replicate k '0' ++ Nat.toDigits 10 n)) = n := by
      intro k
      rw [← List.replicate_one, digitsValue_zeros_append, digitsValue_zeros_append,
        digitsValue_toDigits]
    congr 1
    · exact hvalue _
    · rw [List.length_append, List.length_replicate]
      omega

theorem nearestIndex_ofParts_parts (d : Decimal) :
    nearestIndex ⟨digitsValue (d.parts.1 ++ d.parts.2), -(d.parts.2.length : Int)⟩ =
      d.nearestIndex := by
  rw [ofParts_parts]
  split
  · next hwhole =>
    have hneg : (-d.exponent).toNat = 0 := by omega
    unfold nearestIndex numerator denominator
    rw [hneg]
    show Binary64.nearest (d.digits * 10 ^ d.exponent.toNat * 10 ^ 0 * _) (10 ^ 0) = _
    rw [Nat.pow_zero, Nat.mul_one]
  · rfl

end Decimal

namespace NumberText

open Binary64

/-! ## Reading what was written -/

/-- What is a numeral as a whole is read as its value. -/
theorem readChars_of_ofChars? {cs : List Char} {n : Numeral} (h : Numeral.ofChars? cs = some n) :
    readChars cs = n.value := by
  rw [readChars, Numeral.leading?_of_ofChars? h]
  rfl

/-- **A decimal as text.** Without an exponent, and with a minus in front or
not, it is read as the double nearest to it. -/
theorem readChars_positional (negative : Bool) (d : Decimal) :
    readChars ((if negative then ['-'] else []) ++ d.positional) =
      ofIndex negative d.nearestIndex := by
  obtain ⟨hwhole, hne, hfraction⟩ := d.digits_parts
  have hmantissa := Numeral.isMantissa_joinParts hwhole hne hfraction
  rw [Decimal.positional, readChars_of_ofChars? (Numeral.ofChars?_of_isMantissa _ hmantissa hne)]
  show ofIndex negative (Decimal.index _) = _
  rw [Decimal.index_eq_nearestIndex, Decimal.nearestIndex_ofParts_parts]

theorem readChars_infinity (negative : Bool) :
    readChars ((if negative then ['-'] else []) ++ display.infinity.toList) =
      ofIndex negative infinity := by
  cases negative with
  | false => exact readChars_of_ofChars? (n := ⟨false, .infinity⟩) (by decide)
  | true => exact readChars_of_ofChars? (n := ⟨true, .infinity⟩) (by decide)

/-- The text of a NaN is read as a NaN, and every other text as a double of
the same index; its sign is the one that the text shows. -/
theorem read_shown_eq (x : Float) : read (shown x) =
    if infinity < index x then nan else ofIndex (display.showsMinus x) (index x) := by
  rw [read, shown, write, String.toList_ofList, writeChars]
  by_cases hnan : infinity < index x
  · rw [if_pos hnan, if_pos hnan]
    exact readChars_of_ofChars? (n := ⟨false, .nan⟩) (by decide)
  rw [if_neg hnan, if_neg hnan]
  by_cases hinf : index x = infinity
  · rw [if_pos hinf, hinf]
    exact readChars_infinity _
  · rw [if_neg hinf]
    have hlt : index x < infinity := by omega
    have hread := readChars_positional (display.showsMinus x) (.shortest (index x))
    rwa [Decimal.nearestIndex_shortest hlt] at hread

/-- **Reading what is shown** gives the same double again, unless it is
negative zero. -/
theorem read_shown {x : Float} (h : ¬ (isNegative x = true ∧ index x = 0)) :
    read (shown x) = x := by
  rw [read_shown_eq]
  by_cases hnan : infinity < index x
  · rw [if_pos hnan, eq_nan hnan]
  · have hminus : display.showsMinus x = isNegative x := by
      unfold Style.showsMinus display
      cases hneg : isNegative x with
      | false => rfl
      | true =>
        have : index x ≠ 0 := fun h0 => h ⟨hneg, h0⟩
        simp [this]
    rw [if_neg hnan, hminus, ofIndex_index]

/-- The same, with negative zero excluded by its word. -/
theorem read_shown_of_toBits_ne {x : Float} (h : x.toBits ≠ 0x8000000000000000) :
    read (shown x) = x := by
  refine read_shown fun ⟨hneg, h0⟩ => h ?_
  rw [← UInt64.toNat_inj, toNat_toBits, if_pos hneg, h0]
  rfl

/-- Negative zero is read as zero. -/
theorem read_shown_of_toBits_eq {x : Float} (h : x.toBits = 0x8000000000000000) :
    read (shown x) = ofIndex false 0 := by
  have hindex : index x = 0 := by
    rw [index, h]
    rfl
  have hminus : display.showsMinus x = false := by
    simp [Style.showsMinus, display, hindex]
  rw [read_shown_eq, hindex, hminus, if_neg (by decide)]

/-- **Showing again** what was shown and read shows the same: negative zero
does not show its sign. -/
theorem shown_read_shown (x : Float) : shown (read (shown x)) = shown x := by
  by_cases hzero : x.toBits = 0x8000000000000000
  · have hx : x = Float.ofBits 0x8000000000000000 := by rw [← hzero, ofBits_toBits]
    rw [read_shown_of_toBits_eq hzero, hx]
    decide +kernel
  · rw [read_shown_of_toBits_ne hzero]

/-- Something is shown for every double. -/
theorem shown_ne_empty (x : Float) : shown x ≠ "" := by
  have hchars : writeChars display x ≠ [] := by
    unfold writeChars
    dsimp only
    split
    · simp
    · rw [ne_eq, List.append_eq_nil_iff, not_and_or]
      right
      split
      · decide
      · obtain ⟨-, hne, -⟩ := (Decimal.shortest (index x)).digits_parts
        unfold display Decimal.positional Decimal.joinParts
        dsimp only
        split
        · exact hne
        · simp
  intro h
  have := congrArg String.toList h
  rw [shown, write, String.toList_ofList] at this
  exact hchars this

/-- **Words of doubles.** What is shown for a double is read as the same word,
bit for bit, infinities included. Only negative zero is read as zero, and a
NaN of whatever word as a NaN. -/
theorem toBits_read_shown (bits : UInt64) :
    ((Float.ofBits bits).isNaN = false → bits ≠ 0x8000000000000000 →
        (read (shown (Float.ofBits bits))).toBits = bits) ∧
      (bits = 0x8000000000000000 → (read (shown (Float.ofBits bits))).toBits = 0) ∧
      ((Float.ofBits bits).isNaN = true → (read (shown (Float.ofBits bits))).isNaN = true) := by
  refine ⟨fun hnan hzero => ?_, fun hzero => ?_, fun hnan => ?_⟩
  · have hword : ¬ infinity < bits.toNat % signBit := fun h => by
      rw [isNaN_ofBits_iff.mpr h] at hnan
      contradiction
    have hbits : (Float.ofBits bits).toBits = bits := toBits_ofBits hword
    have hread : read (shown (Float.ofBits bits)) = Float.ofBits bits :=
      read_shown fun ⟨hneg, h0⟩ => hzero <| by
        rw [← UInt64.toNat_inj, ← hbits, toNat_toBits, if_pos hneg, h0]
        rfl
    rw [hread, hbits]
  · subst hzero
    have hindex : index (Float.ofBits 0x8000000000000000) = 0 := by decide +kernel
    have hminus : display.showsMinus (Float.ofBits 0x8000000000000000) = false := by
      simp [Style.showsMinus, display, hindex]
    rw [read_shown_eq, hindex, hminus, if_neg (by decide)]
    decide +kernel
  · rw [read_shown_eq, if_pos (isNaN_iff.mp hnan)]
    decide +kernel

end NumberText

end Keypad
