/-
The digits that are shown for a double.

* `isShortest_shortest`: the search for the shortest decimal ends on the
  coarsest grid that has a point which is read as the double, and at the
  nearest of these points.
* `significance_le`, `abs_sub_le_of_significance_eq`: so no other decimal that
  is read as the double has fewer significant digits, and none with as many is
  nearer.
-/
import Mathlib
import Keypad.Proofs.Nearest
import Keypad.Proofs.NumberTexts

namespace Keypad

open Binary64

-- Powers of naturals are those of the core library, as in the definitions.
attribute [local instance (high)] instPowNat

-- A number too great to be written out.
attribute [local irreducible] Binary64.unitsPerOne

namespace Decimal

/-- How many significant digits there are: zeros at the end do not count. -/
def significance (d : Decimal) : Nat :=
  ((Nat.toDigits 10 d.digits).reverse.dropWhile (· = '0')).length

/-! ## Digits -/

/-- The last digit. -/
theorem exists_toDigits_eq_concat (n : Nat) :
    ∃ ds, Nat.toDigits 10 n = ds ++ [(n % 10).digitChar] := by
  by_cases h : n < 10
  · exact ⟨[], by rw [Nat.toDigits_of_lt_base h, Nat.mod_eq_of_lt h, List.nil_append]⟩
  · exact ⟨_, Nat.toDigits_of_base_le (by decide) (Nat.le_of_not_lt h)⟩

theorem significance_of_mod_ne {n : Nat} (e : Int) (hn : n % 10 ≠ 0) :
    significance ⟨n, e⟩ = digitCount n := by
  obtain ⟨ds, hds⟩ := exists_toDigits_eq_concat n
  have hlast : ¬ (n % 10).digitChar = '0' := by simpa using hn
  unfold significance digitCount
  rw [hds, List.reverse_append, List.reverse_singleton, List.singleton_append,
    List.dropWhile_cons_of_neg (by simpa using hlast)]
  simp

theorem significance_mul_ten (n : Nat) (e e' : Int) :
    significance ⟨n * 10, e⟩ = significance ⟨n, e'⟩ := by
  by_cases hn : n = 0
  · subst hn
    rfl
  · have hmod : n * 10 % 10 = 0 := Nat.mul_mod_left n 10
    have hdigits : Nat.toDigits 10 (n * 10) = Nat.toDigits 10 n ++ ['0'] := by
      rw [Nat.toDigits_of_base_le (by decide) (by omega), hmod, Nat.mul_div_cancel _ (by decide)]
      rfl
    unfold significance
    rw [hdigits, List.reverse_append, List.reverse_singleton, List.singleton_append,
      List.dropWhile_cons_of_pos (by decide)]

theorem significance_mul_ten_pow (n k : Nat) (e e' : Int) :
    significance ⟨n * 10 ^ k, e⟩ = significance ⟨n, e'⟩ := by
  induction k generalizing e with
  | zero => rw [Nat.pow_zero, Nat.mul_one]; rfl
  | succ k ih => rw [Nat.pow_succ, ← Nat.mul_assoc, significance_mul_ten _ _ 0, ih]

theorem toRat_mul_ten_pow (n k : Nat) (e : Int) : toRat ⟨n * 10 ^ k, e⟩ = toRat ⟨n, e + k⟩ := by
  unfold toRat
  rw [Nat.cast_mul, cast_ten_pow, zpow_add₀ (by norm_num), zpow_natCast]
  ring

/-- **Without the zeros at the end** a decimal is the same number. -/
theorem exists_significant (d : Decimal) (hd : d.digits ≠ 0) : ∃ d' : Decimal,
    d'.toRat = d.toRat ∧ d'.digits % 10 ≠ 0 ∧ digitCount d'.digits = d.significance := by
  obtain ⟨n, e⟩ := d
  induction n using Nat.strongRecOn generalizing e with
  | ind n ih =>
    by_cases hmod : n % 10 = 0
    · obtain ⟨m, rfl⟩ : ∃ m, n = m * 10 := ⟨n / 10, by omega⟩
      have hd' : m * 10 ≠ 0 := hd
      obtain ⟨d', htoRat, hd''⟩ := ih m (by omega) (e + 1) (show m ≠ 0 by omega)
      rw [significance_mul_ten m e (e + 1)]
      exact ⟨d', htoRat.trans (toRat_mul_ten_pow m 1 e).symm, hd''⟩
    · exact ⟨⟨n, e⟩, rfl, hmod, (significance_of_mod_ne e hmod).symm⟩

/-! ## Grids -/

theorem toRat_le_toRat_iff {m n : Nat} {e : Int} : toRat ⟨m, e⟩ ≤ toRat ⟨n, e⟩ ↔ m ≤ n := by
  unfold toRat
  rw [mul_le_mul_iff_left₀ (by positivity), Nat.cast_le]

/-- Writing all digits of a double changes nothing of its value. -/
theorem toRat_exact (n : Nat) : (exact n).toRat = magnitude n := by
  have h := congrArg (Nat.cast : Nat → ℚ) (numerator_exact n)
  rw [Nat.cast_mul, Nat.cast_mul] at h
  rw [toRat_eq, magnitude, div_eq_div_iff (exact n).cast_denominator_pos.ne'
    cast_unitsPerOne_pos.ne', h]

theorem gridPosition_spec (n : Nat) (e : Int) : (0 : ℚ) < (gridPosition n e).2 ∧
    magnitude n * (gridPosition n e).2 = (gridPosition n e).1 * 10 ^ e := by
  have hone := cast_unitsPerOne_pos
  unfold gridPosition
  dsimp only
  rw [magnitude, ten_zpow_eq, Nat.cast_mul, Nat.cast_mul, cast_ten_pow, cast_ten_pow]
  constructor
  · positivity
  · field_simp

/-- On the grid of multiples of `10 ^ e` the double at index `n` lies between
the point `k` and the next one. -/
structure LiesAt (n : Nat) (e : Int) (k : Nat) : Prop where
  le : toRat ⟨k, e⟩ ≤ magnitude n
  lt : magnitude n < toRat ⟨k + 1, e⟩

/-- The point below a double, and how the rest tells the middle. -/
theorem liesAt_gridPosition {n : Nat} {e : Int} {a b : Nat} (h : gridPosition n e = (a, b)) :
    LiesAt n e (a / b) ∧ (2 * (a % b) < b ↔
      2 * magnitude n < toRat ⟨a / b, e⟩ + toRat ⟨a / b + 1, e⟩) := by
  have hten : (0 : ℚ) < 10 ^ e := by positivity
  obtain ⟨hb, hv⟩ := gridPosition_spec n e
  rw [h] at hb hv
  dsimp only at hb hv
  have hsplit : (a : ℚ) = b * (a / b : Nat) + (a % b : Nat) := by
    exact_mod_cast (Nat.div_add_mod a b).symm
  have hrest : ((a % b : Nat) : ℚ) < b := by
    have := Nat.mod_lt a (Nat.cast_pos.mp hb)
    exact_mod_cast this
  have hnonneg : (0 : ℚ) ≤ (a % b : Nat) := Nat.cast_nonneg _
  refine ⟨⟨?_, ?_⟩, ?_⟩
  · show (a / b : Nat) * (10 : ℚ) ^ e ≤ magnitude n
    apply le_of_mul_le_mul_right _ hb
    rw [hv, hsplit]
    nlinarith
  · show magnitude n < (a / b + 1 : Nat) * (10 : ℚ) ^ e
    apply lt_of_mul_lt_mul_right _ hb.le
    rw [hv, hsplit]
    push_cast
    nlinarith
  · have hsum : (toRat ⟨a / b, e⟩ + toRat ⟨a / b + 1, e⟩ - 2 * magnitude n) * b =
        (b - 2 * (a % b : Nat)) * 10 ^ e := by
      unfold toRat
      push_cast
      linear_combination -2 * hv - 2 * 10 ^ e * hsplit
    rw [← sub_pos (b := 2 * magnitude n), ← mul_pos_iff_of_pos_right hb, hsum,
      mul_pos_iff_of_pos_right hten, sub_pos]
    exact_mod_cast Iff.rfl

/-- Which one of the two points around a double is taken. -/
theorem exists_gridPoint?_eq (n : Nat) (e : Int) : ∃ k : Nat, LiesAt n e k ∧
    gridPoint? n e =
      if nearestIndex ⟨k, e⟩ = n ∧
          (2 * magnitude n < toRat ⟨k, e⟩ + toRat ⟨k + 1, e⟩ ∨ nearestIndex ⟨k + 1, e⟩ ≠ n)
        then some ⟨k, e⟩
      else if nearestIndex ⟨k + 1, e⟩ = n then some ⟨k + 1, e⟩ else none := by
  unfold gridPoint?
  cases h : gridPosition n e with
  | mk a b =>
    obtain ⟨hlies, hmiddle⟩ := liesAt_gridPosition h
    exact ⟨a / b, hlies, by simp only [hmiddle]⟩

namespace LiesAt

variable {n k m : Nat} {e : Int}

theorem abs_lower (h : LiesAt n e k) :
    |toRat ⟨k, e⟩ - magnitude n| = magnitude n - toRat ⟨k, e⟩ := by
  rw [abs_sub_comm, abs_of_nonneg (sub_nonneg.mpr h.le)]

theorem abs_upper (h : LiesAt n e k) :
    |toRat ⟨k + 1, e⟩ - magnitude n| = toRat ⟨k + 1, e⟩ - magnitude n :=
  abs_of_pos (sub_pos.mpr h.lt)

/-- If any point is read as the double then so is the neighbour on its side,
which is not further from the double. -/
theorem neighbour (h : LiesAt n e k) (hn : n < infinity) (hm : nearestIndex ⟨m, e⟩ = n) :
    (nearestIndex ⟨k, e⟩ = n ∧
        |toRat ⟨k, e⟩ - magnitude n| ≤ |toRat ⟨m, e⟩ - magnitude n|) ∨
      (nearestIndex ⟨k + 1, e⟩ = n ∧
        |toRat ⟨k + 1, e⟩ - magnitude n| ≤ |toRat ⟨m, e⟩ - magnitude n|) := by
  have hexact := nearestIndex_exact hn
  have hle := h.le
  have hlt := h.lt
  rw [← toRat_exact] at hle hlt
  rcases Nat.lt_or_ge k m with hkm | hmk
  · have hpoint := toRat_le_toRat_iff (e := e).mpr hkm
    refine .inr ⟨nearestIndex_between hexact hm hlt.le hpoint, ?_⟩
    rw [h.abs_upper]
    exact (sub_le_sub_right hpoint _).trans (le_abs_self _)
  · have hpoint := toRat_le_toRat_iff (e := e).mpr hmk
    refine .inl ⟨nearestIndex_between hm hexact hpoint hle, ?_⟩
    rw [h.abs_lower, abs_sub_comm]
    exact (sub_le_sub_left hpoint _).trans (le_abs_self _)

end LiesAt

theorem gridPoint?_eq_none {n : Nat} {e : Int} (hn : n < infinity) (h : gridPoint? n e = none)
    (m : Nat) : nearestIndex ⟨m, e⟩ ≠ n := by
  intro hm
  obtain ⟨k, hlies, hk⟩ := exists_gridPoint?_eq n e
  rw [h] at hk
  split at hk
  · cases hk
  · next hlower =>
    split at hk
    · cases hk
    · next hupper =>
      rcases hlies.neighbour hn hm with ⟨hread, -⟩ | ⟨hread, -⟩
      · exact hlower ⟨hread, .inr hupper⟩
      · exact hupper hread

/-- The point that is taken is as near as any that is read as the double. -/
theorem gridPoint?_eq_some {n : Nat} {e : Int} {d : Decimal} (hn : n < infinity)
    (h : gridPoint? n e = some d) : d.exponent = e ∧ ∀ m, nearestIndex ⟨m, e⟩ = n →
      |d.toRat - magnitude n| ≤ |toRat ⟨m, e⟩ - magnitude n| := by
  obtain ⟨k, hlies, hk⟩ := exists_gridPoint?_eq n e
  have hlower := hlies.abs_lower
  have hupper := hlies.abs_upper
  rw [h] at hk
  split at hk
  · next hcase =>
    cases hk
    refine ⟨rfl, fun m hm => ?_⟩
    rcases hlies.neighbour hn hm with ⟨-, hle⟩ | ⟨hread, hle⟩
    · exact hle
    · have hmiddle := hcase.2.resolve_right (not_not.mpr hread)
      linarith
  · next hcase =>
    split at hk
    · cases hk
      refine ⟨rfl, fun m hm => ?_⟩
      rcases hlies.neighbour hn hm with ⟨hread, hle⟩ | ⟨-, hle⟩
      · have hmiddle : ¬ 2 * magnitude n < toRat ⟨k, e⟩ + toRat ⟨k + 1, e⟩ :=
          fun hmiddle => hcase ⟨hread, .inl hmiddle⟩
        linarith
      · exact hle
    · cases hk

/-! ## The search -/

/-- What the search for the double at index `n` finds: a decimal of that index
on the coarsest grid that has one, and the nearest on its grid. -/
structure IsShortest (n : Nat) (d : Decimal) : Prop where
  nearestIndex_eq : d.nearestIndex = n
  exponent_le : ∀ d' : Decimal, d'.nearestIndex = n → d'.exponent ≤ d.exponent
  abs_sub_le : ∀ m, nearestIndex ⟨m, d.exponent⟩ = n →
    |d.toRat - magnitude n| ≤ |toRat ⟨m, d.exponent⟩ - magnitude n|

/-- Along the search no coarser grid has a point, until one has. -/
theorem isShortest_descend {n : Nat} (hn : n < infinity) : ∀ (steps : Nat) (e : Int),
    steps = (e + 1074).toNat → (∀ d : Decimal, d.nearestIndex = n → d.exponent ≤ e) →
      IsShortest n (descend n steps e)
  | 0, e, hsteps, hcoarsest => by
    have hend : e ≤ -1074 := by omega
    refine ⟨nearestIndex_exact hn, fun d hd => (hcoarsest d hd).trans hend, fun m _ => ?_⟩
    rw [descend, toRat_exact, sub_self, abs_zero]
    exact abs_nonneg _
  | steps + 1, e, hsteps, hcoarsest => by
    unfold descend
    cases h : gridPoint? n e with
    | some d =>
      obtain ⟨rfl, hnearest⟩ := gridPoint?_eq_some hn h
      exact ⟨nearestIndex_gridPoint h, hcoarsest, hnearest⟩
    | none =>
      refine isShortest_descend hn steps (e - 1) (by omega) fun d hd => ?_
      have hle := hcoarsest d hd
      have hne : d.exponent ≠ e := by
        rintro rfl
        exact gridPoint?_eq_none hn h d.digits hd
      omega

/-- A decimal is below the double after the one that it is read as. -/
theorem toRat_lt_magnitude_succ {d : Decimal} {n : Nat} (hn : n < infinity)
    (hd : d.nearestIndex = n) : d.toRat < magnitude (n + 1) := by
  have hmiddle := (nearestIndex_eq_iff.mp hd).two_mul_le hn
  have hlt := magnitude_strictMono n.lt_succ_self
  linarith

theorem digitCount_of_lt_ten {n : Nat} (h : n < 10) : digitCount n = 1 := by
  rw [digitCount, Nat.toDigits_of_lt_base h, List.length_singleton]

/-- The next double is not beyond the least point of the coarsest grid. -/
theorem magnitude_succ_le (n : Nat) : magnitude (n + 1) ≤ 10 ^ coarsest n := by
  have hone := cast_unitsPerOne_pos
  have hunit : 0 < unitsPerOne := Nat.cast_pos.mp hone
  have hnext : 0 < units (n + 1) := units_strictMono (Nat.succ_pos n)
  unfold coarsest magnitude
  dsimp only
  generalize units (n + 1) = next at *
  generalize unitsPerOne = unit at *
  rw [div_le_iff₀ hone]
  rcases Nat.lt_or_ge next unit with hlt | hge
  · have hquotient : 0 < unit / next := Nat.div_pos hlt.le hnext
    obtain ⟨k, hk⟩ := Nat.exists_eq_succ_of_ne_zero (digitCount_pos (unit / next)).ne'
    have hpow := ten_pow_le_of_lt_digitCount hquotient.ne' (show k < _ by omega)
    have hle : next * 10 ^ k ≤ unit :=
      (Nat.mul_le_mul_left next hpow).trans (Nat.mul_div_le unit next)
    have hle' : (next : ℚ) * 10 ^ k ≤ unit := by
      rw [← cast_ten_pow]
      exact_mod_cast hle
    have hexp : ((1 : Nat) : Int) - (k + 1 : Nat) + 1 = 1 - k := by omega
    rw [Nat.div_eq_of_lt hlt, digitCount_of_lt_ten (by decide), hk, hexp,
      zpow_sub₀ (by norm_num), zpow_one, zpow_natCast, div_mul_eq_mul_div, le_div_iff₀ (by positivity)]
    linarith
  · have hquotient : unit / next < 10 := by
      have := Nat.div_le_of_le_mul (show unit ≤ next * 1 by omega)
      omega
    have hpow := lt_ten_pow_digitCount (next / unit)
    have hle : next ≤ 10 ^ digitCount (next / unit) * unit :=
      (Nat.lt_mul_of_div_lt hpow hunit).le
    rw [digitCount_of_lt_ten hquotient, Nat.cast_one, sub_add_cancel, zpow_natCast,
      ← cast_ten_pow, ← Nat.cast_mul]
    exact Nat.cast_le.mpr hle

theorem digits_ne_zero {d : Decimal} {n : Nat} (hzero : n ≠ 0) (hd : d.nearestIndex = n) :
    d.digits ≠ 0 := by
  intro h
  rw [nearestIndex_zero h] at hd
  exact hzero hd.symm

/-- The search starts at a grid with no point beyond it. -/
theorem exponent_le_coarsest {d : Decimal} {n : Nat} (hn : n < infinity) (hzero : n ≠ 0)
    (hd : d.nearestIndex = n) : d.exponent ≤ coarsest n := by
  have hdigits := digits_ne_zero hzero hd
  have hpow : (10 : ℚ) ^ d.exponent < 10 ^ coarsest n :=
    calc (10 : ℚ) ^ d.exponent ≤ d.digits * 10 ^ d.exponent :=
          le_mul_of_one_le_left (by positivity) (by exact_mod_cast Nat.pos_of_ne_zero hdigits)
      _ < magnitude (n + 1) := toRat_lt_magnitude_succ hn hd
      _ ≤ 10 ^ coarsest n := magnitude_succ_le n
  exact ((zpow_lt_zpow_iff_right₀ (by norm_num)).mp hpow).le

theorem isShortest_shortest {n : Nat} (hn : n < infinity) (hzero : n ≠ 0) :
    IsShortest n (shortest n) := by
  rw [shortest, if_neg hzero]
  exact isShortest_descend hn _ _ rfl fun d hd => exponent_le_coarsest hn hzero hd

/-! ## No shorter decimal -/

theorem nearestIndex_congr {d d' : Decimal} (h : d.toRat = d'.toRat) :
    d.nearestIndex = d'.nearestIndex :=
  Nat.le_antisymm (nearestIndex_mono h.le) (nearestIndex_mono h.ge)

theorem toRat_lt_ten_zpow (d : Decimal) : d.toRat < 10 ^ d.order := by
  rw [order, zpow_add₀ (by norm_num), zpow_natCast, toRat, ← cast_ten_pow]
  exact mul_lt_mul_of_pos_right (Nat.cast_lt.mpr (lt_ten_pow_digitCount _)) (by positivity)

theorem ten_zpow_le_toRat {d : Decimal} (hd : d.digits ≠ 0) : 10 ^ (d.order - 1) ≤ d.toRat := by
  obtain ⟨k, hk⟩ := Nat.exists_eq_succ_of_ne_zero (digitCount_pos d.digits).ne'
  have hexp : d.order - 1 = (k : Int) + d.exponent := by
    rw [order, hk]
    omega
  have hpow := ten_pow_le_of_lt_digitCount hd (show k < _ by omega)
  rw [hexp, zpow_add₀ (by norm_num), zpow_natCast, toRat, ← cast_ten_pow]
  exact mul_le_mul_of_nonneg_right (Nat.cast_le.mpr hpow) (by positivity)

theorem toRat_one (e : Int) : toRat ⟨1, e⟩ = 10 ^ e := by
  rw [toRat, Nat.cast_one, one_mul]

namespace IsShortest

variable {n : Nat} {d d' : Decimal}

/-- The last digit is not a zero: the grid would not be the coarsest. -/
theorem digits_mod_ne (h : IsShortest n d) : d.digits % 10 ≠ 0 := by
  intro hmod
  obtain ⟨m, hm⟩ : ∃ m, d.digits = m * 10 := ⟨d.digits / 10, by omega⟩
  have htoRat : d.toRat = toRat ⟨m, d.exponent + 1⟩ := by
    rw [← Nat.cast_one, ← toRat_mul_ten_pow, Nat.pow_one, ← hm]
  have hle := h.exponent_le ⟨m, d.exponent + 1⟩ (by rw [← nearestIndex_congr htoRat, h.nearestIndex_eq])
  dsimp only at hle
  omega

/-- A power of ten between two decimals of the same index has one digit, so the
coarsest grid has points of one digit only. -/
theorem digitCount_eq_one (h : IsShortest n d) (hzero : n ≠ 0) (hd' : d'.nearestIndex = n)
    (hlt : d'.order < d.order) : digitCount d.digits = 1 ∧ nearestIndex ⟨1, d.exponent⟩ = n := by
  have hbelow : d'.toRat ≤ toRat ⟨1, d.order - 1⟩ := by
    rw [toRat_one]
    exact d'.toRat_lt_ten_zpow.le.trans (zpow_le_zpow_right₀ (by norm_num) (by omega))
  have habove : toRat ⟨1, d.order - 1⟩ ≤ d.toRat := by
    rw [toRat_one]
    exact ten_zpow_le_toRat (digits_ne_zero hzero h.nearestIndex_eq)
  have hpower := nearestIndex_between hd' h.nearestIndex_eq hbelow habove
  have hle : d.order - 1 ≤ d.exponent := h.exponent_le _ hpower
  have hpos := digitCount_pos d.digits
  have hcount : digitCount d.digits = 1 := by
    unfold order at hle
    omega
  have hexp : d.order - 1 = d.exponent := by
    rw [order, hcount]
    omega
  rw [hexp] at hpower
  exact ⟨hcount, hpower⟩

/-- **Shortest.** No decimal that is read as the double has fewer digits. -/
theorem significance_le (h : IsShortest n d) (hzero : n ≠ 0) (hd' : d'.nearestIndex = n) :
    d.significance ≤ d'.significance := by
  obtain ⟨d'', htoRat, -, hcount⟩ := d'.exists_significant (digits_ne_zero hzero hd')
  have hd'' : d''.nearestIndex = n := (nearestIndex_congr htoRat).trans hd'
  have hexp := h.exponent_le d'' hd''
  rw [← hcount, significance_of_mod_ne d.exponent h.digits_mod_ne]
  by_contra hlt
  have horder : d''.order < d.order := by
    unfold order
    omega
  have hone := (h.digitCount_eq_one hzero hd'' horder).1
  have hpos := digitCount_pos d''.digits
  omega

end IsShortest

/-- A power of ten that is read as one of the least doubles is `10 ^ -323`, and
the double is that of two units. -/
theorem eq_two_of_lt_ten {n : Nat} {e : Int} (hzero : n ≠ 0) (hn : n < 10)
    (h : nearestIndex ⟨1, e⟩ = n) : e = -323 ∧ n = 2 := by
  have hmono : ∀ {i j : Int}, i ≤ j → nearestIndex ⟨1, i⟩ ≤ nearestIndex ⟨1, j⟩ := by
    intro i j hij
    apply nearestIndex_mono
    rw [toRat_one, toRat_one]
    exact zpow_le_zpow_right₀ (by norm_num) hij
  have hbelow : nearestIndex ⟨1, -324⟩ = 0 := by decide +kernel
  have hat : nearestIndex ⟨1, -323⟩ = 2 := by decide +kernel
  have habove : nearestIndex ⟨1, -322⟩ = 20 := by decide +kernel
  have hexp : e = -323 := by
    by_contra hne
    rcases Int.lt_or_gt_of_ne hne with hlt | hgt
    · have := hmono (show e ≤ -324 by omega)
      omega
    · have := hmono (show -322 ≤ e by omega)
      omega
  subst hexp
  exact ⟨rfl, h.symm.trans hat⟩

/-- A power of ten is not much greater than the double that it is read as. -/
theorem ten_zpow_le_magnitude {n : Nat} {e : Int} (hzero : n ≠ 0) (hn : n < infinity)
    (h : nearestIndex ⟨1, e⟩ = n) : 19 * (10 : ℚ) ^ e ≤ 20 * magnitude n := by
  have hone := cast_unitsPerOne_pos
  by_cases hsmall : n < 10
  · obtain ⟨rfl, rfl⟩ := eq_two_of_lt_ten hzero hsmall h
    have hunits : units 2 = 2 := rfl
    have hle : 19 * unitsPerOne ≤ 20 * 2 * 10 ^ (323 : Nat) := by decide +kernel
    have hcast : (19 : ℚ) * unitsPerOne ≤ 20 * 2 * 10 ^ (323 : Nat) := by
      rw [← cast_ten_pow]
      exact_mod_cast hle
    have hten : (10 : ℚ) ^ (-323 : Int) = (10 ^ (323 : Nat))⁻¹ := zpow_neg_coe_of_pos 10 (by decide)
    rw [magnitude, hunits, Nat.cast_ofNat, hten, ← div_eq_mul_inv, mul_div_assoc',
      div_le_div_iff₀ (by positivity) hone]
    exact hcast
  · have hmiddle := (nearestIndex_eq_iff.mp h).two_mul_le hn
    have hsignificand : 10 ≤ significand n := by
      unfold significand binade binadeSize
      omega
    have hsignificand' : (10 : ℚ) ≤ significand n := by exact_mod_cast hsignificand
    have hpow : (0 : ℚ) < 2 ^ binade n := by positivity
    rw [toRat_one, magnitude, magnitude, units_succ, units_eq, ← add_div, Nat.cast_mul, Nat.cast_mul,
      cast_two_pow, le_div_iff₀ hone] at hmiddle
    rw [magnitude, units_eq, Nat.cast_mul, cast_two_pow, mul_div_assoc', le_div_iff₀ hone]
    push_cast at hmiddle
    nlinarith

namespace IsShortest

variable {n : Nat} {d d' : Decimal}

/-- **Nearest of the shortest.** No decimal with as many digits that is read as
the double is nearer to it. -/
theorem abs_sub_le_of_significance_eq (h : IsShortest n d) (hzero : n ≠ 0) (hn : n < infinity)
    (hd' : d'.nearestIndex = n) (heq : d'.significance = d.significance) :
    |d.toRat - magnitude n| ≤ |d'.toRat - magnitude n| := by
  obtain ⟨d'', htoRat, -, hcount⟩ := d'.exists_significant (digits_ne_zero hzero hd')
  have hd'' : d''.nearestIndex = n := (nearestIndex_congr htoRat).trans hd'
  rw [← htoRat]
  rw [heq, significance_of_mod_ne d.exponent h.digits_mod_ne] at hcount
  have hle := h.exponent_le d'' hd''
  rcases Int.lt_or_eq_of_le hle with hlt | hexp
  · -- On a finer grid there is no room for as many digits unless it is one.
    have horder : d''.order < d.order := by
      unfold order
      omega
    obtain ⟨hone, hpower⟩ := h.digitCount_eq_one hzero hd'' horder
    have hnear := ten_zpow_le_magnitude hzero hn hpower
    have hdist := h.abs_sub_le 1 hpower
    rw [toRat_one] at hdist
    have hbelow : d''.toRat ≤ 9 / 10 * 10 ^ d.exponent := by
      have hdigit := lt_ten_pow_digitCount d''.digits
      rw [hcount, hone, Nat.pow_one] at hdigit
      calc d''.toRat ≤ 9 * 10 ^ (d.exponent - 1) :=
            mul_le_mul (by exact_mod_cast Nat.le_of_lt_succ hdigit)
              (zpow_le_zpow_right₀ (by norm_num) (by omega)) (by positivity) (by norm_num)
        _ = 9 / 10 * 10 ^ d.exponent := by
            rw [zpow_sub_one₀ (by norm_num)]
            ring
    have hten : (0 : ℚ) < 10 ^ d.exponent := by positivity
    refine hdist.trans (le_trans (abs_le.mpr ⟨?_, ?_⟩) (neg_le_abs _))
    · linarith
    · linarith
  · have hgrid := h.abs_sub_le d''.digits (by rw [← hexp]; exact hd'')
    rwa [← hexp] at hgrid

end IsShortest

end Decimal

end Keypad
