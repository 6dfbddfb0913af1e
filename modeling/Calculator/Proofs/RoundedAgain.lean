-- Rounding the double of a rounded value. The rounded value is typed, and read as
-- the double nearest to it. That double is no farther from it than the first one
-- was, so it is rounded to the same, also where it has fallen below a power of
-- ten, and its digits count a tenth of what the first ones did.
import Mathlib
import Calculator.Proofs.NearestValue

namespace Calculator

namespace Double

/-! ## How far the nearest double is -/

section

variable {m : ℕ} {q : ℚ}

/-- A value is not farther above the double that it lies around than half the step. -/
theorem Around.sub_le (h : Around m q) : q - size m ≤ (size (m + 1) - size m) / 2 := by
  have := h.high
  linarith

theorem size_succ_sub (m : ℕ) :
    size (m + 1) - size m = (2 ^ (m / 2 ^ 52 - 1) : ℕ) / unitsPerOne := by
  rw [size, size, units_succ, Nat.cast_add, ← sub_div, add_sub_cancel_left]

/-- From `2 ^ 52` units on, the step is a small part of the double. -/
theorem size_succ_sub_le (hm : 2 ^ 52 ≤ m) : 2 ^ 52 * (size (m + 1) - size m) ≤ size m := by
  have hunits : (2 : ℚ) ^ 52 * (2 ^ (m / 2 ^ 52 - 1) : ℕ) ≤ units m := by
    exact_mod_cast step_le_units hm
  rw [size_succ_sub, size, mul_div_assoc']
  exact div_le_div_of_nonneg_right hunits cast_unitsPerOne_pos.le

theorem size_succ_sub_eq (hm : m < 2 ^ 52) : size (m + 1) - size m = size 1 := by
  rw [size_succ_sub, size_one, show m / 2 ^ 52 - 1 = 0 by omega, Nat.pow_zero, Nat.cast_one]

theorem size_one_le_sub {n : ℕ} (h : m < n) : size 1 ≤ size n - size m := by
  have hunits : (units m : ℚ) + 1 ≤ units n := by exact_mod_cast units_lt_units h
  rw [size_one, size, size, ← sub_div]
  exact div_le_div_of_nonneg_right (by linarith) cast_unitsPerOne_pos.le

end

/-! ## Powers of ten near one unit -/

theorem small_units :
    2 * unitsPerOne ≤ (units 0 + units 1) * 10 ^ 324 ∧
      (units 0 + units 1) * 10 ^ 323 < 1 * unitsPerOne ∧
      (units 2024022532 + units 2024022533) * 10 ^ 314 < 2 * unitsPerOne ∧
      (2 * 10 ^ 10 - 1) * unitsPerOne ≤ (units 2024022533 + units 2024022533) * 10 ^ 324 := by
  decide +kernel

theorem size_one_bounds : 2 * 10 ^ (-324 : ℤ) ≤ size 1 ∧ size 1 ≤ 10 ^ (-323 : ℤ) := by
  have hlow := (mul_ten_le_size_add_iff (a := 2) (k := 324)).mpr small_units.1
  have hhigh := (size_add_lt_iff (a := 1) (k := 323)).mpr small_units.2.1
  rw [size_zero, zero_add] at hlow hhigh
  rw [Nat.cast_one, one_mul] at hhigh
  exact ⟨hlow, hhigh.le⟩

/-- Among doubles of a few units, only the one below `10 ^ (-314)` could be told by the next digit
from the power of ten above it, and it is near enough. -/
theorem sub_le_of_around_ten {m : ℕ} (h : Around m (10 ^ (-314 : ℤ))) :
    10 ^ (-314 : ℤ) - size m ≤ 10 ^ (-324 : ℤ) / 2 := by
  have hbefore : size 2024022532 + size 2024022533 < 2 * 10 ^ (-314 : ℤ) :=
    (size_add_lt_iff (a := 2) (k := 314)).mpr small_units.2.2.1
  have hnear := (mul_ten_le_size_add_iff (a := 2 * 10 ^ 10 - 1) (k := 324)).mpr
    small_units.2.2.2
  have hpower : (10 : ℚ) ^ (-314 : ℤ) = 10 ^ 10 * 10 ^ (-324 : ℤ) := by
    rw [show (-314 : ℤ) = (10 : ℕ) + -324 by norm_num, zpow_add₀ (by norm_num), zpow_natCast]
  have hm : 2024022533 ≤ m := by
    by_contra hless
    have hself : size m ≤ size 2024022532 := size_le_size.mpr (by omega)
    have hnext : size (m + 1) ≤ size 2024022533 := size_le_size.mpr (by omega)
    have hhigh := h.high
    linarith
  have hsize := size_le_size.mpr hm
  have hnear' : (2 * 10 ^ 10 - 1) * (10 : ℚ) ^ (-324 : ℤ) ≤ size 2024022533 + size 2024022533 := by
    have hcast : ((2 * 10 ^ 10 - 1 : ℕ) : ℚ) = 2 * 10 ^ 10 - 1 := by norm_num
    rw [hcast] at hnear
    exact hnear
  rw [hpower]
  linarith

/-! ## Rounding the nearest double -/

section

variable {digits m n : ℕ} {place c : ℤ}

/-- A double that has fallen below the power of ten of the rounded value is not farther from it than
half the last digit of that power allows. -/
theorem sub_le_of_around (h : RoundsTo digits (size n) place c) (hn : 0 < n) (hdigits : 0 < digits)
    (hfew : digits ≤ 15) (hplace : digits = 10 ∨ -322 ≤ place) (hm : Around m (c * 10 ^ place))
    (hlow : size m < 10 ^ (place + digits - 1)) :
    c * 10 ^ place - size m ≤ 10 ^ (place - 1) / 2 := by
  have hstep := hm.sub_le
  have hfine := ten_pos (place - 1)
  obtain ⟨hunit, hunit'⟩ := size_one_bounds
  rcases Nat.lt_or_ge m (2 ^ 52) with hsmall | hlarge
  · rw [size_succ_sub_eq hsmall] at hstep
    rcases (by omega : -322 ≤ place ∨ place = -323 ∧ digits = 10 ∨ place ≤ -324) with
      hplain | ⟨rfl, rfl⟩ | hbelow
    · have hten : (10 : ℚ) ^ (-323 : ℤ) ≤ 10 ^ (place - 1) := ten_le_ten.mpr (by omega)
      linarith
    · -- The rounded value is the power of ten itself, and there is one double below it.
      have hc := h.eq_low_of_below (size_pos hn) hdigits (hm.dist_le n) hlow
      have hpower : (c : ℚ) * 10 ^ (-323 : ℤ) = 10 ^ (-314 : ℤ) := by
        rw [hc, ← RoundsTo.split_low (-323) hdigits]
        rfl
      rw [hpower] at hm ⊢
      exact sub_le_of_around_ten hm
    · -- Two doubles would be nearer to each other than a unit.
      have hhigh := h.le_abs
      rw [abs_of_pos (size_pos hn)] at hhigh
      have hmn : m < n := size_lt_size.mp (lt_of_lt_of_le hlow hhigh)
      have hunits := size_one_le_sub hmn
      have hfar := abs_le.mp h.near
      have hfar' := abs_le.mp (le_trans (hm.dist_le n) h.near)
      have hten : (10 : ℚ) ^ place ≤ 10 ^ (-324 : ℤ) := ten_le_ten.mpr hbelow
      have hpos := ten_pos (-324)
      linarith
  · have hpart := size_succ_sub_le hlarge
    have hgrid : (10 : ℚ) ^ (place + digits - 1) ≤ 10 ^ 15 * 10 ^ (place - 1) := by
      rw [← zpow_natCast, ← zpow_add₀ (by norm_num)]
      exact ten_le_ten.mpr (by push_cast; omega)
    linarith

/-- The double nearest to a rounded value is rounded to the same. -/
theorem isRounding_of_around {q : ℚ} (hn : 0 < n) (hdigits : 1 < digits) (hfew : digits ≤ 15)
    (hlarge : digits = 10 ∨ 10 ^ (-300 : ℤ) ≤ size n) (h : IsRounding digits (size n) q)
    (hm : Around m q) : 0 < m ∧ IsRounding digits (size m) q := by
  obtain ⟨place, c, h, rfl⟩ := h
  have hpos : 0 < m := by
    -- More than half a unit is left of any value, and zero is not nearest to that.
    refine Nat.pos_of_ne_zero fun hzero => ?_
    have hhalf := h.half_lt (size_pos hn) hdigits
    have hone : size 1 ≤ size n := size_le_size.mpr hn
    have hhigh := hm.high
    rw [hzero, size_zero, zero_add, Nat.zero_add] at hhigh
    linarith
  refine ⟨hpos, h.of_nearer (size_pos hn) (by omega) (size_pos hpos) (hm.dist_le n) fun hlow =>
    sub_le_of_around h hn (by omega) hfew ?_ hm hlow⟩
  refine hlarge.imp id fun hsize => ?_
  have hhigh := h.abs_lt
  rw [abs_of_pos (size_pos hn)] at hhigh
  have := ten_lt_ten.mp (lt_of_le_of_lt hsize hhigh)
  omega

end

end Double

end Calculator
