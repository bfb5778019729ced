/-
Rounding to the nearest double.

The exact number is `a / b` units and the double at index `n` is `units n`,
so how near they are is `Nat.dist a (units n * b)`, with no rational
arithmetic.

* `units_strictMono`: the order of indices is the order of values.
* `dist_unbounded_le`, `unbounded_even`: as if doubles went on for ever,
  `nearest` is a nearest index, and of two nearest ones the even one.
* `nearest_units`: the value of a double is rounded to that double.
* `nearest_eq_infinity`, `nearest_eq_zero`: beyond all doubles, and at most
  half a unit.
-/
import Mathlib.Data.Nat.Dist
import Mathlib.Order.Monotone.Basic
import Mathlib.Tactic.Ring
import Keypad.Binary64

namespace Keypad.Binary64

-- Powers are those of the core library, as in the definitions.
attribute [local instance (high)] instPowNat

/-! ## Values by binade and significand -/

/-- The power of two that the significand at index `n` counts. -/
def binade (n : Nat) : Nat := n / binadeSize - 1

/-- The significand at index `n`, the leading one included. -/
def significand (n : Nat) : Nat := n - binade n * binadeSize

theorem binade_add_significand (n : Nat) : binade n * binadeSize + significand n = n := by
  unfold significand binade binadeSize
  omega

theorem significand_lt (n : Nat) : significand n < 2 * binadeSize := by
  unfold significand binade binadeSize
  omega

/-- Only in the lowest binade a significand has no leading one. -/
theorem le_significand (n : Nat) : binade n = 0 ∨ binadeSize ≤ significand n := by
  unfold significand binade binadeSize
  omega

theorem units_eq (n : Nat) : units n = significand n * 2 ^ binade n := by
  unfold units
  by_cases hn : n < binadeSize
  · have hb : binade n = 0 := by rw [binade, Nat.div_eq_of_lt hn]
    rw [if_pos hn, significand, hb, Nat.zero_mul, Nat.sub_zero, Nat.pow_zero, Nat.mul_one]
  · have hsig : significand n = binadeSize + n % binadeSize := by
      unfold significand binade binadeSize at *
      omega
    rw [if_neg hn, hsig, binade]

/-- A significand that carries is that of the next binade. -/
theorem units_add {s m : Nat} (hm : m ≤ 2 * binadeSize) (hs : s = 0 ∨ binadeSize ≤ m) :
    units (s * binadeSize + m) = m * 2 ^ s := by
  rw [units_eq]
  by_cases hc : m = 2 * binadeSize
  · have hb : binade (s * binadeSize + m) = s + 1 := by
      unfold binade binadeSize at *
      omega
    have hsig : significand (s * binadeSize + m) = binadeSize := by
      rw [significand, hb, Nat.succ_mul]
      omega
    rw [hb, hsig, hc, Nat.pow_succ 2 s, Nat.mul_comm 2, Nat.mul_assoc, Nat.mul_comm 2]
  · have hb : binade (s * binadeSize + m) = s := by
      unfold binade binadeSize at *
      omega
    have hsig : significand (s * binadeSize + m) = m := by
      rw [significand, hb]
      omega
    rw [hb, hsig]

/-- The next double has a significand that is one greater, or has its value. -/
theorem units_succ (n : Nat) : units (n + 1) = (significand n + 1) * 2 ^ binade n := by
  have h := @units_add (binade n) (significand n + 1) (significand_lt n)
    (by have := le_significand n; omega)
  rwa [← Nat.add_assoc, binade_add_significand] at h

/-- **Order of indices.** A greater index is a greater value. -/
theorem units_strictMono : StrictMono units := by
  refine strictMono_nat_of_lt_succ fun n => ?_
  rw [units_succ, units_eq]
  exact Nat.mul_lt_mul_of_pos_right (Nat.lt_succ_self _) (Nat.two_pow_pos _)

/-! ## The nearest integer -/

/-- `a / b` is no further than a half from `r`, and exactly a half only from
an even `r`. -/
structure IsRounded (a b r : Nat) : Prop where
  le : 2 * a ≤ 2 * (r * b) + b
  ge : 2 * (r * b) ≤ 2 * a + b
  even : 2 * a = 2 * (r * b) + b ∨ 2 * (r * b) = 2 * a + b → r % 2 = 0

theorem isRounded_roundQuotient (a : Nat) {b : Nat} (hb : 0 < b) :
    IsRounded a b (roundQuotient a b) := by
  have hmod := Nat.mod_lt a hb
  have hdiv : a / b * b + a % b = a := Nat.div_add_mod' a b
  unfold roundQuotient
  dsimp only
  split
  · next h => exact ⟨by omega, by omega, by omega⟩
  · next h =>
    have hsucc : (a / b + 1) * b = a / b * b + b := Nat.succ_mul ..
    exact ⟨by omega, by omega, by omega⟩

namespace IsRounded

variable {a b r : Nat}

/-- **The nearest integer.** -/
theorem dist_le (h : IsRounded a b r) (k : Nat) : Nat.dist a (r * b) ≤ Nat.dist a (k * b) := by
  have := h.le
  have := h.ge
  unfold Nat.dist
  rcases Nat.lt_trichotomy k r with hlt | rfl | hgt
  · have := Nat.mul_le_mul_right b hlt
    rw [Nat.succ_mul] at this
    omega
  · exact Nat.le_refl _
  · have := Nat.mul_le_mul_right b hgt
    rw [Nat.succ_mul] at this
    omega

/-- Of two nearest integers it is the even one. -/
theorem even_of_dist_eq (h : IsRounded a b r) (hb : 0 < b) {k : Nat} (hne : k ≠ r)
    (heq : Nat.dist a (k * b) = Nat.dist a (r * b)) : r % 2 = 0 := by
  have := h.le
  have := h.ge
  apply h.even
  unfold Nat.dist at heq
  rcases Nat.lt_or_gt_of_ne hne with hlt | hgt
  · have := Nat.mul_le_mul_right b hlt
    rw [Nat.succ_mul] at this
    omega
  · have := Nat.mul_le_mul_right b hgt
    rw [Nat.succ_mul] at this
    omega

end IsRounded

/-! ## The nearest double -/

/-- The surplus bits leave a significand: 53 bits, or fewer if nothing is
surplus. -/
theorem surplusBits_spec (q : Nat) :
    q / 2 ^ surplusBits q < 2 * binadeSize ∧
      (surplusBits q = 0 ∨ binadeSize ≤ q / 2 ^ surplusBits q) := by
  unfold surplusBits
  have hsize : 2 * binadeSize = 2 ^ (53 : Nat) := rfl
  have hpos := Nat.two_pow_pos (q.log2 - 52)
  have hlt := @Nat.lt_log2_self q
  constructor
  · rw [hsize, Nat.div_lt_iff_lt_mul hpos, ← Nat.pow_add]
    exact Nat.lt_of_lt_of_le hlt (Nat.pow_le_pow_right (by decide) (by omega))
  · by_cases hs : q.log2 - 52 = 0
    · exact .inl hs
    · right
      have hq : q ≠ 0 := by
        rintro rfl
        simp at hs
      rw [binadeSize, Nat.le_div_iff_mul_le hpos, ← Nat.pow_add]
      exact Nat.le_trans (Nat.pow_le_pow_right (by decide) (by omega)) (Nat.log2_self_le hq)

/-- The index nearest to `a / b` units if doubles went on beyond infinity. -/
def unbounded (a b : Nat) : Nat :=
  surplusBits (a / b) * binadeSize + roundQuotient a (b * 2 ^ surplusBits (a / b))

theorem nearest_eq (a b : Nat) : nearest a b = min (unbounded a b) infinity := rfl

theorem quotient_spec (a b : Nat) :
    a / (b * 2 ^ surplusBits (a / b)) < 2 * binadeSize ∧
      (surplusBits (a / b) = 0 ∨ binadeSize ≤ a / (b * 2 ^ surplusBits (a / b))) := by
  rw [← Nat.div_div_eq_div_mul]
  exact surplusBits_spec (a / b)

theorem roundQuotient_bounds (a b : Nat) :
    a / b ≤ roundQuotient a b ∧ roundQuotient a b ≤ a / b + 1 := by
  unfold roundQuotient
  dsimp only
  split <;> omega

/-- The index is that of an integer multiple of a power of two, which is as
small as 53 bits allow. -/
theorem unbounded_spec (a : Nat) {b : Nat} (hb : 0 < b) : ∃ s r,
    unbounded a b = s * binadeSize + r ∧ units (unbounded a b) * b = r * (b * 2 ^ s) ∧
      IsRounded a (b * 2 ^ s) r ∧ (0 < s → binadeSize * (b * 2 ^ s) ≤ a) := by
  have hpos : 0 < b * 2 ^ surplusBits (a / b) := Nat.mul_pos hb (Nat.two_pow_pos _)
  obtain ⟨hlt, hle⟩ := quotient_spec a b
  have hr := roundQuotient_bounds a (b * 2 ^ surplusBits (a / b))
  refine ⟨_, _, rfl, ?_, isRounded_roundQuotient a hpos, fun hs => ?_⟩
  · rw [unbounded, units_add (by omega) (by omega)]
    ring
  · exact (Nat.le_div_iff_mul_le hpos).mp (hle.resolve_left (by omega))

/-- A value is a multiple of `2 ^ s`, or it is at most the least one whose
significand counts `2 ^ s`. -/
theorem units_grid (n s b : Nat) : (∃ k, units n * b = k * (b * 2 ^ s)) ∨
    (0 < s ∧ units n * b ≤ binadeSize * (b * 2 ^ s)) := by
  rw [units_eq]
  rcases Nat.lt_or_ge (binade n) s with h | h
  · refine .inr ⟨by omega, ?_⟩
    have hsig := Nat.le_of_lt (significand_lt n)
    calc significand n * 2 ^ binade n * b ≤ 2 * binadeSize * 2 ^ binade n * b :=
          Nat.mul_le_mul_right _ (Nat.mul_le_mul_right _ hsig)
      _ = binadeSize * (b * 2 ^ (binade n + 1)) := by rw [Nat.pow_succ]; ring
      _ ≤ binadeSize * (b * 2 ^ s) :=
          Nat.mul_le_mul_left _ (Nat.mul_le_mul_left _ (Nat.pow_le_pow_right (by decide) h))
  · refine .inl ⟨significand n * 2 ^ (binade n - s), ?_⟩
    have hpow : 2 ^ binade n = 2 ^ (binade n - s) * 2 ^ s := by
      rw [← Nat.pow_add, Nat.sub_add_cancel h]
    rw [hpow]
    ring

/-- **The nearest double.** No double is nearer to `a / b` units. -/
theorem dist_unbounded_le (a : Nat) {b : Nat} (hb : 0 < b) (n : Nat) :
    Nat.dist a (units (unbounded a b) * b) ≤ Nat.dist a (units n * b) := by
  obtain ⟨s, r, -, hunits, hr, hpoint⟩ := unbounded_spec a hb
  rw [hunits]
  rcases units_grid n s b with ⟨k, hk⟩ | ⟨hs, hbelow⟩
  · rw [hk]
    exact hr.dist_le k
  · -- The doubles finer than the grid lie below one of its points, and that
    -- one is not beyond the number.
    have hle := hpoint hs
    refine Nat.le_trans (hr.dist_le binadeSize) ?_
    unfold Nat.dist
    omega

/-- Of two nearest doubles it is the even one. -/
theorem unbounded_even (a : Nat) {b : Nat} (hb : 0 < b) {n : Nat} (hne : n ≠ unbounded a b)
    (htie : Nat.dist a (units n * b) = Nat.dist a (units (unbounded a b) * b)) :
    unbounded a b % 2 = 0 := by
  have hvalue : units n * b ≠ units (unbounded a b) * b := fun h =>
    hne (units_strictMono.injective (Nat.eq_of_mul_eq_mul_right hb h))
  obtain ⟨s, r, hindex, hunits, hr, hpoint⟩ := unbounded_spec a hb
  have hpos : 0 < b * 2 ^ s := Nat.mul_pos hb (Nat.two_pow_pos s)
  rw [hunits] at htie hvalue
  suffices hgrid : ∃ k, units n * b = k * (b * 2 ^ s) by
    obtain ⟨k, hk⟩ := hgrid
    rw [hk] at htie hvalue
    have hreven := hr.even_of_dist_eq hpos (fun h => hvalue (by rw [h])) htie
    rw [hindex]
    unfold binadeSize
    omega
  rcases units_grid n s b with hgrid | ⟨hs, hbelow⟩
  · exact hgrid
  · -- One as near as the index is the grid point above the finer doubles.
    refine ⟨binadeSize, ?_⟩
    have hle := hpoint hs
    have hdist := hr.dist_le binadeSize
    unfold Nat.dist at htie hdist
    omega

/-- **Where the index steps up.** Beyond the middle of two neighbours the
upper one is nearer, and the middle itself goes to the even one. -/
theorem lt_unbounded_iff (a : Nat) {b : Nat} (hb : 0 < b) (n : Nat) :
    n < unbounded a b ↔ (units n + units (n + 1)) * b < 2 * a ∨
      ((units n + units (n + 1)) * b = 2 * a ∧ n % 2 = 1) := by
  have hn := dist_unbounded_le a hb n
  have hsucc := dist_unbounded_le a hb (n + 1)
  have heven := @unbounded_even a b hb
  have hstep : units n * b < units (n + 1) * b :=
    Nat.mul_lt_mul_of_pos_right (units_strictMono (Nat.lt_succ_self n)) hb
  have hinj : ∀ m, units (unbounded a b) * b = units m * b → unbounded a b = m := fun m h =>
    units_strictMono.injective (Nat.eq_of_mul_eq_mul_right hb h)
  rw [Nat.add_mul]
  generalize unbounded a b = u at *
  unfold Nat.dist at hn hsucc heven
  constructor
  · intro hlt
    have hle : units (n + 1) * b ≤ units u * b :=
      Nat.mul_le_mul_right b (units_strictMono.monotone hlt)
    rcases Nat.lt_or_ge (units n * b + units (n + 1) * b) (2 * a) with h | h
    · exact .inl h
    · have hu : u = n + 1 := hinj (n + 1) (by omega)
      have := @heven n (by omega) (by omega)
      exact .inr ⟨by omega, by omega⟩
  · intro h
    by_contra hge
    have hle : units u * b ≤ units n * b :=
      Nat.mul_le_mul_right b (units_strictMono.monotone (Nat.le_of_not_lt hge))
    have hu : u = n := hinj n (by omega)
    have := @heven (n + 1) (by omega) (by omega)
    omega

/-! ## Rounding to a double or to infinity -/

/-- The value of a double is rounded to that double. -/
theorem nearest_units {n k : Nat} (hn : n < infinity) (hk : 0 < k) :
    nearest (units n * k) k = n := by
  have hdist := dist_unbounded_le (units n * k) hk n
  have hvalue : units n * k = units (unbounded (units n * k) k) * k := by
    unfold Nat.dist at hdist
    omega
  have hu : n = unbounded (units n * k) k :=
    units_strictMono.injective (Nat.eq_of_mul_eq_mul_right hk hvalue)
  rw [nearest_eq, ← hu, Nat.min_eq_left (Nat.le_of_lt hn)]

/-- **Overflow.** What is nearer to infinity than to the greatest finite double
is rounded to infinity, and so is the middle. -/
theorem nearest_eq_infinity_iff {a b : Nat} (hb : 0 < b) :
    nearest a b = infinity ↔ (units (infinity - 1) + units infinity) * b ≤ 2 * a := by
  have hodd : (infinity - 1) % 2 = 1 := by decide
  have hlast : infinity - 1 + 1 = infinity := by decide
  have hstep := lt_unbounded_iff a hb (infinity - 1)
  rw [hlast] at hstep
  rw [nearest_eq]
  omega

/-- Infinity stands where `2 ^ 1024` would. -/
theorem units_infinity : units infinity = 2 ^ (1024 : Nat) * unitsPerOne := by
  have h : infinity = 2046 * binadeSize + binadeSize := rfl
  -- The exponents are numerals too great to be evaluated, so they stay apart.
  have hpow : ∀ i j k l : Nat, i + j = k + l → 2 ^ i * 2 ^ j = 2 ^ k * 2 ^ l := by
    intro i j k l he
    rw [← Nat.pow_add, ← Nat.pow_add, he]
  rw [h, units_add (by decide) (.inr (Nat.le_refl _)), binadeSize, unitsPerOne,
    hpow 52 2046 1024 1074 rfl]

theorem nearest_eq_infinity {a b : Nat} (hb : 0 < b) (h : units infinity * b ≤ a) :
    nearest a b = infinity := by
  have hlast : units (infinity - 1) * b ≤ units infinity * b :=
    Nat.mul_le_mul_right b (units_strictMono.monotone (by decide))
  rw [nearest_eq_infinity_iff hb, Nat.add_mul]
  omega

/-- What is at most half a unit is rounded to zero. -/
theorem nearest_eq_zero {a b : Nat} (hb : 0 < b) (h : 2 * a ≤ b) : nearest a b = 0 := by
  have hlt : ¬ 0 < unbounded a b := by
    rw [lt_unbounded_iff a hb]
    have hone : units 0 + units (0 + 1) = 1 := rfl
    rw [hone]
    omega
  rw [nearest_eq]
  omega

end Keypad.Binary64
