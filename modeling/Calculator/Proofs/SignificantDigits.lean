-- Rounding to significant digits as a relation on exact values, apart from how the
-- digits are worked out: the nearest whole number of kept digits, the even one of
-- two. What it does to the order is so shown once for both displays.
import Mathlib
import Calculator.Decimal.Significant

namespace Calculator

/-! ## Values -/

/-- The exact value of a decimal. -/
def Decimal.value (d : Decimal) : ℚ := d.coefficient * 10 ^ d.exponent

/-! ## Powers of ten -/

theorem ten_pos (e : ℤ) : (0 : ℚ) < 10 ^ e := by positivity

theorem ten_le_ten {i j : ℤ} : (10 : ℚ) ^ i ≤ 10 ^ j ↔ i ≤ j :=
  zpow_le_zpow_iff_right₀ (by norm_num)

theorem ten_lt_ten {i j : ℤ} : (10 : ℚ) ^ i < 10 ^ j ↔ i < j :=
  zpow_lt_zpow_iff_right₀ (by norm_num)

theorem ten_succ (e : ℤ) : (10 : ℚ) ^ (e + 1) = 10 * 10 ^ e := by
  rw [zpow_add_one₀ (by norm_num), mul_comm]

/-! ## The relation -/

/-- Rounding to significant digits: the last digit that is kept counts `10 ^ place`, and
`c` of these are nearest to the value, the even one of two. -/
structure RoundsTo (digits : ℕ) (v : ℚ) (place c : ℤ) : Prop where
  /-- The first digit stands in front. -/
  le_abs : 10 ^ (place + digits - 1) ≤ |v|
  abs_lt : |v| < 10 ^ (place + digits)
  near : |v - c * 10 ^ place| ≤ 10 ^ place / 2
  even : |v - c * 10 ^ place| = 10 ^ place / 2 → Even c

/-- `q` is the value `v` rounded to significant digits. -/
def IsRounding (digits : ℕ) (v q : ℚ) : Prop :=
  ∃ place c : ℤ, RoundsTo digits v place c ∧ q = c * 10 ^ place

namespace RoundsTo

variable {digits : ℕ} {v w : ℚ} {place place' c c' : ℤ}

theorem neg (h : RoundsTo digits v place c) : RoundsTo digits (-v) place (-c) := by
  have hdist : |-v - (-c : ℤ) * 10 ^ place| = |v - c * 10 ^ place| := by
    rw [← abs_neg]
    push_cast
    ring_nf
  refine ⟨?_, ?_, ?_, ?_⟩
  · rw [abs_neg]; exact h.le_abs
  · rw [abs_neg]; exact h.abs_lt
  · rw [hdist]; exact h.near
  · rw [hdist, even_neg]; exact h.even

/-! ### Positive values -/

/-- A whole number of steps is not below a whole number that the rounded value reaches. -/
theorem le_of_le {k : ℤ} (h : RoundsTo digits v place c) (hk : k * 10 ^ place ≤ v) : k ≤ c := by
  by_contra hc
  have hstep : (c : ℚ) + 1 ≤ k := by exact_mod_cast (by omega : c + 1 ≤ k)
  have hplace := ten_pos place
  have hnear := abs_le.mp h.near
  nlinarith

theorem le_of_ge {k : ℤ} (h : RoundsTo digits v place c) (hk : v ≤ k * 10 ^ place) : c ≤ k := by
  by_contra hc
  have hstep : (k : ℚ) + 1 ≤ c := by exact_mod_cast (by omega : k + 1 ≤ c)
  have hplace := ten_pos place
  have hnear := abs_le.mp h.near
  nlinarith

theorem split_low (place : ℤ) (hdigits : 0 < digits) :
    (10 : ℚ) ^ (place + digits - 1) = ((10 ^ (digits - 1) : ℤ) : ℚ) * 10 ^ place := by
  rw [show place + digits - 1 = ((digits - 1 : ℕ) : ℤ) + place by omega,
    zpow_add₀ (by norm_num), zpow_natCast]
  push_cast
  rfl

theorem split_high (place : ℤ) :
    (10 : ℚ) ^ (place + digits) = ((10 ^ digits : ℤ) : ℚ) * 10 ^ place := by
  rw [add_comm, zpow_add₀ (by norm_num), zpow_natCast]
  push_cast
  rfl

section

variable (h : RoundsTo digits v place c) (hv : 0 < v) (hdigits : 0 < digits)

include h hv hdigits

/-- What is kept of a positive value has as many digits as are asked for. -/
theorem low_le : 10 ^ (digits - 1) ≤ c := by
  apply h.le_of_le
  rw [← split_low place hdigits, ← abs_of_pos hv]
  exact h.le_abs

omit hdigits in
/-- What is kept of a positive value has no more digits than are asked for, or it is the next power
of ten. -/
theorem le_high : c ≤ 10 ^ digits := by
  apply h.le_of_ge
  rw [← split_high place, ← abs_of_pos hv]
  exact h.abs_lt.le

theorem low_le_mul : 10 ^ (place + digits - 1) ≤ (c : ℚ) * 10 ^ place := by
  rw [split_low place hdigits]
  exact mul_le_mul_of_nonneg_right (by exact_mod_cast h.low_le hv hdigits) (ten_pos place).le

omit hdigits in
theorem mul_le_high : (c : ℚ) * 10 ^ place ≤ 10 ^ (place + digits) := by
  rw [split_high place]
  exact mul_le_mul_of_nonneg_right (by exact_mod_cast h.le_high hv) (ten_pos place).le

theorem pos : 0 < (c : ℚ) * 10 ^ place :=
  lt_of_lt_of_le (ten_pos _) (h.low_le_mul hv hdigits)

omit hdigits in
/-- More than half of a value is left when two digits or more are kept. -/
theorem half_lt (hdigits : 1 < digits) : v / 2 < (c : ℚ) * 10 ^ place := by
  have hlow := h.le_abs
  rw [abs_of_pos hv] at hlow
  have hplace : (10 : ℚ) ^ place < 10 ^ (place + digits - 1) := ten_lt_ten.mpr (by omega)
  have hnear := abs_le.mp h.near
  linarith

theorem ten_le_mul {j : ℤ} (hj : 10 ^ j ≤ v) : 10 ^ j ≤ (c : ℚ) * 10 ^ place := by
  have hlt : (10 : ℚ) ^ j < 10 ^ (place + digits) := by
    rw [← abs_of_pos hv] at hj
    exact lt_of_le_of_lt hj h.abs_lt
  have hplace : j ≤ place + digits - 1 := by
    have := ten_lt_ten.mp hlt
    omega
  exact le_trans (ten_le_ten.mpr hplace) (h.low_le_mul hv hdigits)

omit hdigits in
theorem mul_le_ten {j : ℤ} (hj : v < 10 ^ j) : (c : ℚ) * 10 ^ place ≤ 10 ^ j := by
  have hlt : (10 : ℚ) ^ (place + digits - 1) < 10 ^ j := by
    rw [← abs_of_pos hv] at hj
    exact lt_of_le_of_lt h.le_abs hj
  have hplace : place + digits ≤ j := by
    have := ten_lt_ten.mp hlt
    omega
  exact le_trans (h.mul_le_high hv) (ten_le_ten.mpr hplace)

theorem mul_le_mul (h' : RoundsTo digits w place' c') (hle : v ≤ w) :
    (c : ℚ) * 10 ^ place ≤ c' * 10 ^ place' := by
  have hw := lt_of_lt_of_le hv hle
  have hplaces : (10 : ℚ) ^ (place + digits - 1) < 10 ^ (place' + digits) := by
    have hlow := h.le_abs
    have hhigh := h'.abs_lt
    rw [abs_of_pos hv] at hlow
    rw [abs_of_pos hw] at hhigh
    exact lt_of_le_of_lt (le_trans hlow hle) hhigh
  have hplaces := ten_lt_ten.mp hplaces
  rcases (by omega : place < place' ∨ place = place') with hlt | rfl
  · -- A power of ten stands between the two.
    calc (c : ℚ) * 10 ^ place ≤ 10 ^ (place + digits) := h.mul_le_high hv
      _ ≤ 10 ^ (place' + digits - 1) := ten_le_ten.mpr (by omega)
      _ ≤ c' * 10 ^ place' := h'.low_le_mul hw hdigits
  · -- Both are rounded to the same grid. Only a value half-way could go both ways.
    have hc : c ≤ c' := by
      by_contra hgt
      have hstep : (c' : ℚ) + 1 ≤ c := by exact_mod_cast (by omega : c' + 1 ≤ c)
      have hplace := ten_pos place
      have hnear := abs_le.mp h.near
      have hnear' := abs_le.mp h'.near
      have hmul : (c' : ℚ) * 10 ^ place + 10 ^ place ≤ c * 10 ^ place := by nlinarith
      have heven : Even c := h.even (by rw [abs_of_nonpos (by linarith)]; linarith)
      have heven' : Even c' := h'.even (by rw [abs_of_nonneg (by linarith)]; linarith)
      have hnext : c = c' + 1 := by
        have : (c : ℚ) ≤ c' + 1 := by nlinarith
        have : c ≤ c' + 1 := by exact_mod_cast this
        omega
      rw [hnext] at heven
      exact (Int.even_add_one.mp heven) heven'
    exact mul_le_mul_of_nonneg_right (by exact_mod_cast hc) (ten_pos place).le

end

/-! ### Rounding a near value again -/

section

variable (h : RoundsTo digits v place c) (hv : 0 < v) (hdigits : 0 < digits) (hw : 0 < w)
  (hnear : |w - c * 10 ^ place| ≤ |v - c * 10 ^ place|)

include h hw hnear

/-- A near value of the same power of ten keeps the same digits. -/
theorem of_within (hlow : 10 ^ (place + digits - 1) ≤ w) (hhigh : w < 10 ^ (place + digits)) :
    IsRounding digits w (c * 10 ^ place) := by
  refine ⟨place, c, ⟨?_, ?_, le_trans hnear h.near, fun heq => ?_⟩, rfl⟩
  · rwa [abs_of_pos hw]
  · rwa [abs_of_pos hw]
  · exact h.even (le_antisymm h.near (by rw [← heq]; exact hnear))

include hv hdigits

/-- A near value that has reached the next power of ten. The rounded value is that power. -/
theorem of_above (hhigh : 10 ^ (place + digits) ≤ w) : IsRounding digits w (c * 10 ^ place) := by
  have hplace := ten_pos place
  have hclose := abs_le.mp (le_trans hnear h.near)
  have hc : c = 10 ^ digits := by
    apply le_antisymm (h.le_high hv)
    by_contra hlt
    have hstep : (c : ℚ) + 1 ≤ ((10 ^ digits : ℤ) : ℚ) := by
      exact_mod_cast (by omega : c + 1 ≤ 10 ^ digits)
    rw [split_high place] at hhigh
    nlinarith
  have hpower : (c : ℚ) * 10 ^ place = 10 ^ (place + digits) := by rw [hc, split_high place]
  have hsame : (c : ℚ) * 10 ^ place = ((10 ^ (digits - 1) : ℤ) : ℚ) * 10 ^ (place + 1) := by
    rw [hpower, ← split_low (place + 1) hdigits]
    ring_nf
  have hgrid : (10 : ℚ) ^ place ≤ 10 ^ (place + digits) := ten_le_ten.mpr (by omega)
  have hnext := ten_succ place
  refine ⟨place + 1, 10 ^ (digits - 1), ⟨?_, ?_, ?_, fun heq => ?_⟩, hsame⟩
  · rw [abs_of_pos hw, show place + 1 + digits - 1 = place + digits by ring]
    exact hhigh
  · rw [abs_of_pos hw, show place + 1 + digits = place + digits + 1 by ring, ten_succ]
    linarith
  · rw [← hsame]
    exact le_trans (abs_le.mpr hclose) (by linarith)
  · rw [← hsame] at heq
    have := abs_le.mpr hclose
    linarith

omit hw in
/-- A value is rounded to the power of ten that it reaches when a near value is below it. -/
theorem eq_low_of_below (hlow : w < 10 ^ (place + digits - 1)) : c = 10 ^ (digits - 1) := by
  have hplace := ten_pos place
  have hclose := abs_le.mp (le_trans hnear h.near)
  refine le_antisymm ?_ (h.low_le hv hdigits)
  by_contra hgt
  have hstep : ((10 ^ (digits - 1) : ℤ) : ℚ) + 1 ≤ c := by
    exact_mod_cast (by omega : 10 ^ (digits - 1) + 1 ≤ c)
  rw [split_low place hdigits] at hlow
  nlinarith

/-- A near value that has fallen below the power of ten that the other value reaches. The rounded
value is that power, and it must not be farther away than the finer grid below it allows. -/
theorem of_below (hlow : w < 10 ^ (place + digits - 1))
    (hbelow : c * 10 ^ place - w ≤ 10 ^ (place - 1) / 2) :
    IsRounding digits w (c * 10 ^ place) := by
  have hc := h.eq_low_of_below hv hdigits hnear hlow
  have hpower : (c : ℚ) * 10 ^ place = 10 ^ (place + digits - 1) := by
    rw [hc, split_low place hdigits]
  have hsame : (c : ℚ) * 10 ^ place = ((10 ^ digits : ℤ) : ℚ) * 10 ^ (place - 1) := by
    rw [hpower, ← split_high (place - 1)]
    ring_nf
  have hsteps : (10 : ℚ) ^ (place + digits - 1) = 10 * 10 ^ (place - 1 + digits - 1) := by
    rw [← ten_succ]
    ring_nf
  have hgrid : (10 : ℚ) ^ (place - 1) ≤ 10 ^ (place - 1 + digits - 1) :=
    ten_le_ten.mpr (by omega)
  have hfine := ten_pos (place - 1)
  refine ⟨place - 1, 10 ^ digits, ⟨?_, ?_, ?_, fun _ => ?_⟩, hsame⟩
  · rw [abs_of_pos hw]
    linarith
  · rw [abs_of_pos hw, show place - 1 + digits = place + digits - 1 by ring]
    exact hlow
  · rw [← hsame, abs_of_nonpos (by linarith)]
    linarith
  · exact Int.even_pow.mpr ⟨by decide, by omega⟩

/-- A value that is no farther from the rounded value is rounded to the same. Where it starts with a
digit less, it must not be farther than the grid of that digit allows. -/
theorem of_nearer
    (hbelow : w < 10 ^ (place + digits - 1) → c * 10 ^ place - w ≤ 10 ^ (place - 1) / 2) :
    IsRounding digits w (c * 10 ^ place) := by
  rcases lt_or_ge w (10 ^ (place + digits - 1)) with hlow | hlow
  · exact h.of_below hv hdigits hw hnear hlow (hbelow hlow)
  · rcases lt_or_ge w (10 ^ (place + digits)) with hhigh | hhigh
    · exact h.of_within hw hnear hlow hhigh
    · exact h.of_above hv hdigits hw hnear hhigh

end

end RoundsTo

namespace IsRounding

variable {digits : ℕ} {v w q q' : ℚ}

theorem le (h : IsRounding digits v q) (h' : IsRounding digits w q') (hdigits : 0 < digits)
    (hv : 0 < v) (hle : v ≤ w) : q ≤ q' := by
  obtain ⟨place, c, h, rfl⟩ := h
  obtain ⟨place', c', h', rfl⟩ := h'
  exact h.mul_le_mul hv hdigits h' hle

theorem unique (h : IsRounding digits v q) (h' : IsRounding digits v q') (hdigits : 0 < digits)
    (hv : 0 < v) : q = q' :=
  le_antisymm (h.le h' hdigits hv le_rfl) (h'.le h hdigits hv le_rfl)

theorem neg (h : IsRounding digits v q) : IsRounding digits (-v) (-q) := by
  obtain ⟨place, c, h, rfl⟩ := h
  exact ⟨place, -c, h.neg, by push_cast; ring⟩

theorem pos (h : IsRounding digits v q) (hdigits : 0 < digits) (hv : 0 < v) : 0 < q := by
  obtain ⟨place, c, h, rfl⟩ := h
  exact h.pos hv hdigits

theorem ten_le {j : ℤ} (h : IsRounding digits v q) (hdigits : 0 < digits) (hv : 0 < v)
    (hj : 10 ^ j ≤ v) : 10 ^ j ≤ q := by
  obtain ⟨place, c, h, rfl⟩ := h
  exact h.ten_le_mul hv hdigits hj

theorem le_ten {j : ℤ} (h : IsRounding digits v q) (hv : 0 < v) (hj : v < 10 ^ j) : q ≤ 10 ^ j := by
  obtain ⟨place, c, h, rfl⟩ := h
  exact h.mul_le_ten hv hj

/-- A rounded value that does not reach the next power of ten stays a step below it. -/
theorem le_ten_sub {j : ℤ} (h : IsRounding digits v q) (hdigits : 0 < digits) (hv : 0 < v)
    (hj : v < 10 ^ j) (hne : q ≠ 10 ^ j) : q ≤ 10 ^ j - 10 ^ (j - digits) := by
  obtain ⟨place, c, h, rfl⟩ := h
  have hlow := h.le_abs
  rw [abs_of_pos hv] at hlow
  have hplace : place + digits - 1 < j := ten_lt_ten.mp (lt_of_le_of_lt hlow hj)
  have hhigh := h.mul_le_high hv
  rcases (by omega : place + digits < j ∨ place + digits = j) with hlt | hlast
  · have hpower : (10 : ℚ) ^ (place + digits) ≤ 10 ^ (j - 1) := ten_le_ten.mpr (by omega)
    have hgrid : (10 : ℚ) ^ (j - digits) ≤ 10 ^ (j - 1) := ten_le_ten.mpr (by omega)
    have hten := ten_succ (j - 1)
    have hpos := ten_pos (j - 1)
    rw [sub_add_cancel] at hten
    linarith
  · rw [← hlast] at hne ⊢
    rw [add_sub_cancel_right]
    have hc : c ≤ 10 ^ digits - 1 := by
      have hle := h.le_high hv
      have hself : c ≠ 10 ^ digits := fun heq => hne (by rw [heq, RoundsTo.split_high place])
      omega
    have hc' : (c : ℚ) ≤ ((10 ^ digits : ℤ) : ℚ) - 1 := by exact_mod_cast hc
    rw [RoundsTo.split_high place]
    have hstep := mul_le_mul_of_nonneg_right hc' (ten_pos place).le
    linarith

end IsRounding

/-! ## The rounding of decimals -/

namespace Decimal

theorem digitCount_pos (n : ℕ) : 0 < digitCount n := by
  unfold digitCount
  split <;> omega

theorem lt_digitCount (n : ℕ) : n < 10 ^ digitCount n := by
  fun_induction digitCount n with
  | case1 n h => exact h
  | case2 n h ih => rw [Nat.pow_succ]; omega

theorem le_digitCount {n : ℕ} (h : n ≠ 0) : 10 ^ (digitCount n - 1) ≤ n := by
  fun_induction digitCount n with
  | case1 n h' => simpa using Nat.one_le_iff_ne_zero.mpr h
  | case2 n h' ih =>
    have hstep := ih (by omega)
    obtain ⟨k, hk⟩ : ∃ k, digitCount (n / 10) = k + 1 := ⟨digitCount (n / 10) - 1, by
      have := digitCount_pos (n / 10)
      omega⟩
    rw [hk, Nat.add_sub_cancel] at hstep ⊢
    rw [Nat.pow_succ]
    omega

theorem divideToEven_spec (num den : ℕ) (hden : 0 < den) :
    2 * num ≤ (2 * divideToEven num den + 1) * den ∧
      2 * divideToEven num den * den ≤ 2 * num + den ∧
      (2 * num = (2 * divideToEven num den + 1) * den ∨
        2 * divideToEven num den * den = 2 * num + den → divideToEven num den % 2 = 0) := by
  have hsplit := Nat.div_add_mod num den
  have hmod := Nat.mod_lt num hden
  unfold divideToEven
  simp only
  generalize num / den = low at *
  generalize num % den = rest at *
  rw [Nat.mul_comm] at hsplit
  have hexpand : ∀ k : ℕ, (2 * k + 1) * den = 2 * (k * den) + den := fun k => by ring
  have hexpand' : ∀ k : ℕ, 2 * k * den = 2 * (k * den) := fun k => by ring
  have hnext : (low + 1) * den = low * den + den := by ring
  split
  · rw [hexpand, hexpand']
    omega
  · split
    · rw [hexpand, hexpand', hnext]
      omega
    · split
      · rw [hexpand, hexpand']
        omega
      · rw [hexpand, hexpand', hnext]
        omega

theorem divideToEven_one (n : ℕ) : divideToEven n 1 = n := by
  simp [divideToEven, Nat.mod_one]

theorem value_nonneg (d : Decimal) : 0 ≤ d.value := by
  unfold value
  positivity

theorem value_pos {d : Decimal} (h : d.coefficient ≠ 0) : 0 < d.value := by
  have := Nat.pos_of_ne_zero h
  unfold value
  positivity

theorem value_bounds {d : Decimal} (h : d.coefficient ≠ 0) :
    10 ^ (d.exponent + digitCount d.coefficient - 1) ≤ d.value ∧
      d.value < 10 ^ (d.exponent + digitCount d.coefficient) := by
  have hpos := digitCount_pos d.coefficient
  have hlow : (10 : ℚ) ^ (digitCount d.coefficient - 1) ≤ d.coefficient := by
    exact_mod_cast le_digitCount h
  have hhigh : (d.coefficient : ℚ) < 10 ^ digitCount d.coefficient := by
    exact_mod_cast lt_digitCount d.coefficient
  have hten := ten_pos d.exponent
  constructor
  · rw [show d.exponent + digitCount d.coefficient - 1 =
      ((digitCount d.coefficient - 1 : ℕ) : ℤ) + d.exponent by omega, zpow_add₀ (by norm_num),
      zpow_natCast]
    exact mul_le_mul_of_nonneg_right hlow hten.le
  · rw [add_comm, zpow_add₀ (by norm_num), zpow_natCast]
    exact mul_lt_mul_of_pos_right hhigh hten

theorem isRounding_significant (digits : ℕ) {d : Decimal} (h : d.coefficient ≠ 0) :
    IsRounding digits d.value (d.significant digits).value := by
  obtain ⟨hlow, hhigh⟩ := value_bounds h
  have hpos := value_pos h
  rw [← abs_of_pos hpos] at hlow hhigh
  by_cases hfew : digitCount d.coefficient ≤ digits
  · -- There is nothing to round off.
    have hsame : (d.significant digits).value = d.value := by
      have hnone : digitCount d.coefficient - digits = 0 := by omega
      simp only [significant, hnone, value, Nat.pow_zero, divideToEven_one, Nat.cast_zero, add_zero]
    have hshift : d.exponent + digitCount d.coefficient - digits + digits =
        d.exponent + digitCount d.coefficient := by ring
    have hexact : d.value = ((d.coefficient * 10 ^ (digits - digitCount d.coefficient) : ℕ) : ℤ) *
        (10 : ℚ) ^ (d.exponent + digitCount d.coefficient - digits) := by
      have hsplit : d.exponent = ((digits - digitCount d.coefficient : ℕ) : ℤ) +
          (d.exponent + digitCount d.coefficient - digits) := by omega
      rw [value, hsplit, zpow_add₀ (by norm_num), zpow_natCast, ← hsplit]
      push_cast
      ring
    have hgrid := ten_pos (d.exponent + digitCount d.coefficient - digits)
    refine ⟨_, _, ⟨?_, ?_, ?_, fun heq => ?_⟩, hsame.trans hexact⟩
    · rwa [hshift]
    · rwa [hshift]
    · rw [← hexact, sub_self, abs_zero]
      positivity
    · rw [← hexact, sub_self, abs_zero] at heq
      linarith
  · have hspec := divideToEven_spec d.coefficient
      (10 ^ (digitCount d.coefficient - digits)) (Nat.pow_pos (by decide))
    simp only [significant, value] at hlow hhigh ⊢
    obtain ⟨dropped, hdropped⟩ : ∃ k, k = digitCount d.coefficient - digits := ⟨_, rfl⟩
    rw [← hdropped] at hspec ⊢
    generalize divideToEven d.coefficient (10 ^ dropped) = kept at hspec ⊢
    obtain ⟨hup, hdown, htie⟩ := hspec
    have hten := ten_pos d.exponent
    have hscale : (10 : ℚ) ^ (d.exponent + dropped) = 10 ^ dropped * 10 ^ d.exponent := by
      rw [add_comm, zpow_add₀ (by norm_num), zpow_natCast]
    have hdist : (d.coefficient : ℚ) * 10 ^ d.exponent - (kept : ℤ) * 10 ^ (d.exponent + dropped) =
        (d.coefficient - kept * 10 ^ dropped) * 10 ^ d.exponent := by
      rw [hscale]
      push_cast
      ring
    have hup' : 2 * (d.coefficient : ℚ) ≤ (2 * kept + 1) * 10 ^ dropped := by exact_mod_cast hup
    have hdown' : 2 * (kept : ℚ) * 10 ^ dropped ≤ 2 * d.coefficient + 10 ^ dropped := by
      exact_mod_cast hdown
    have hnear : |(d.coefficient : ℚ) - kept * 10 ^ dropped| ≤ 10 ^ dropped / 2 :=
      abs_le.mpr ⟨by linarith, by linarith⟩
    have hplaces : d.exponent + dropped + digits = d.exponent + digitCount d.coefficient := by
      omega
    refine ⟨d.exponent + dropped, kept, ⟨?_, ?_, ?_, fun heq => ?_⟩, by push_cast; rfl⟩
    · rwa [hplaces]
    · rwa [hplaces]
    · rw [hdist, abs_mul, abs_of_pos hten, hscale]
      nlinarith
    · rw [hdist, abs_mul, abs_of_pos hten, hscale, mul_div_right_comm,
        mul_left_inj' hten.ne'] at heq
      have hends : 2 * (d.coefficient : ℚ) = (2 * kept + 1) * 10 ^ dropped ∨
          2 * (kept : ℚ) * 10 ^ dropped = 2 * d.coefficient + 10 ^ dropped := by
        rcases abs_choice ((d.coefficient : ℚ) - kept * 10 ^ dropped) with h | h
        · left; linarith
        · right; linarith
      have heven : kept % 2 = 0 := htie (by exact_mod_cast hends)
      exact_mod_cast Nat.even_iff.mpr heven

/-- No more digits are kept than are asked for, except in the next power of ten. -/
theorem coefficient_significant_le (digits : ℕ) (d : Decimal) :
    (d.significant digits).coefficient ≤ 10 ^ digits := by
  have hcount := lt_digitCount d.coefficient
  have hpower : 0 < 10 ^ (digitCount d.coefficient - digits) := Nat.pow_pos (by decide)
  obtain ⟨-, hdown, -⟩ := divideToEven_spec d.coefficient _ hpower
  have hless : d.coefficient < 10 ^ digits * 10 ^ (digitCount d.coefficient - digits) := by
    rw [← Nat.pow_add]
    exact Nat.lt_of_lt_of_le hcount (Nat.pow_le_pow_right (by decide) (by omega))
  by_contra hmore
  have hmultiple := Nat.mul_le_mul_right (10 ^ (digitCount d.coefficient - digits))
    (Nat.not_le.mp hmore)
  simp only [significant, Nat.succ_eq_add_one, Nat.add_mul, Nat.one_mul] at hmultiple
  rw [Nat.mul_assoc] at hdown
  omega

theorem coefficient_significant_ne_zero (digits : ℕ) {d : Decimal} (hdigits : 0 < digits)
    (h : d.coefficient ≠ 0) : (d.significant digits).coefficient ≠ 0 := by
  obtain ⟨place, c, hrounds, heq⟩ := isRounding_significant digits h
  have hpos := hrounds.pos (value_pos h) hdigits
  rw [← heq] at hpos
  intro hzero
  rw [value, hzero, Nat.cast_zero, zero_mul] at hpos
  exact lt_irrefl _ hpos

/-! ## Zeros at the end -/

/-- A decimal with no zero at the end of its digits. -/
def Trimmed (d : Decimal) : Prop := d.coefficient % 10 ≠ 0

theorem exists_trim_eq (d : Decimal) :
    ∃ z : ℕ, d.coefficient = d.trim.coefficient * 10 ^ z ∧ d.trim.exponent = d.exponent + z := by
  fun_induction trim d with
  | case1 d h => exact ⟨0, by simp, by simp⟩
  | case2 d h hzero ih =>
    obtain ⟨z, hcoefficient, hexponent⟩ := ih
    simp only at hcoefficient hexponent
    refine ⟨z + 1, ?_, ?_⟩
    · rw [Nat.pow_succ, ← Nat.mul_assoc, ← hcoefficient]
      omega
    · rw [hexponent]
      omega
  | case3 d h hzero => exact ⟨0, by simp, by simp⟩

theorem value_trim (d : Decimal) : d.trim.value = d.value := by
  obtain ⟨z, hcoefficient, hexponent⟩ := d.exists_trim_eq
  rw [value, value, hexponent, hcoefficient, add_comm, zpow_add₀ (by norm_num), zpow_natCast]
  push_cast
  ring

theorem trimmed_trim {d : Decimal} (h : d.coefficient ≠ 0) : d.trim.Trimmed := by
  fun_induction trim d with
  | case1 d h' => exact absurd h' h
  | case2 d h' hzero ih => exact ih (by show d.coefficient / 10 ≠ 0; omega)
  | case3 d h' hzero => exact hzero

/-- The exponent of a decimal with no zero at the end is the largest one that its value has. -/
theorem Trimmed.exponent_le {d d' : Decimal} (h : d.Trimmed) (heq : d.value = d'.value) :
    d'.exponent ≤ d.exponent := by
  by_contra hlt
  obtain ⟨k, hk⟩ : ∃ k : ℕ, d'.exponent = d.exponent + 1 + k :=
    ⟨(d'.exponent - d.exponent - 1).toNat, by omega⟩
  have hten : (10 : ℚ) ^ d.exponent ≠ 0 := by positivity
  have hmul : d.coefficient = 10 * (d'.coefficient * 10 ^ k) := by
    have hvalues : (d.coefficient : ℚ) = 10 * (d'.coefficient * 10 ^ k) := by
      rw [value, value, hk, zpow_add₀ (by norm_num), zpow_add₀ (by norm_num), zpow_one,
        zpow_natCast] at heq
      apply mul_right_cancel₀ hten
      rw [heq]
      ring
    exact_mod_cast hvalues
  apply h
  rw [hmul, Nat.mul_mod_right]

theorem Trimmed.unique {d d' : Decimal} (h : d.Trimmed) (h' : d'.Trimmed)
    (heq : d.value = d'.value) : d = d' := by
  obtain ⟨c, e⟩ := d
  obtain ⟨c', e'⟩ := d'
  have hexponent : e = e' := le_antisymm (h'.exponent_le heq.symm) (h.exponent_le heq)
  subst hexponent
  have hcoefficient : (c : ℚ) = c' := mul_right_cancel₀ (by positivity) heq
  rw [Nat.cast_injective hcoefficient]

end Decimal

end Calculator
