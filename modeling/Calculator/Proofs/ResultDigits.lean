-- The digits of a result on the screen. Whichever way they are written, they are
-- those of the exact value of the double, rounded once. Twelve of them go through
-- a double again before they are written, and come out the same.
import Mathlib
import Calculator.Display
import Calculator.Proofs.FifteenDigits

namespace Calculator

namespace Double

theorem value_atoms (n : ℕ) : (⟨atoms n, -1074⟩ : Decimal).value = size n := by
  have hscale := scale_units
  have hone := cast_unitsPerOne_pos
  have hten : (10 : ℚ) ^ (1074 : ℤ) ≠ 0 := (ten_pos 1074).ne'
  rw [Decimal.value, size, zpow_neg, atoms, ← div_eq_mul_inv, div_eq_div_iff hten hone.ne']
  generalize (5 ^ 1074 : ℕ) = fives at hscale ⊢
  rw [← hscale]
  push_cast
  ring

end Double

namespace Display

open Double

/-! ## The two thresholds -/

/-- The two thresholds in units, and how the doubles around them lie to the numbers of ten and of
twelve digits around them. -/
structure ThresholdUnits : Prop where
  lower : positionalFrom = 4472406533629990549
  upper : positionalBelow = 4756540486875873280
  le_lower : unitsPerOne ≤ units positionalFrom * 10 ^ 9
  middle_lower_lt :
    (units (positionalFrom - 1) + units positionalFrom) * 10 ^ 9 < 2 * unitsPerOne
  le_middle_lower :
    (2 * 10 ^ 10 - 1) * unitsPerOne ≤ (units (positionalFrom - 1) + units positionalFrom) * 10 ^ 19
  upper_units : units positionalBelow = 10 ^ 10 * unitsPerOne
  le_middle_upper :
    (2 * 10 ^ 12 - 1) * unitsPerOne ≤ (units (positionalBelow - 1) + units positionalBelow) * 10 ^ 2

theorem threshold_units : ThresholdUnits := by
  constructor <;> decide +kernel

theorem positionalFrom_pos : 0 < positionalFrom := by
  rw [threshold_units.lower]
  decide

theorem positionalFrom_lt_positionalBelow : positionalFrom < positionalBelow := by
  rw [threshold_units.lower, threshold_units.upper]
  decide

theorem positionalBelow_lt_infinityOrdinal : positionalBelow < infinityOrdinal := by
  rw [threshold_units.upper]
  decide

/-- The double at the lower threshold is the first one that is not below `10 ^ (-9)`. -/
theorem le_size_positionalFrom : 10 ^ (-9 : ℤ) ≤ size positionalFrom :=
  (ten_le_size_iff (k := 9)).mpr threshold_units.le_lower

/-- The half-way point in front of it is below `10 ^ (-9)` too. -/
theorem middle_positionalFrom_lt :
    size (positionalFrom - 1) + size positionalFrom < 2 * 10 ^ (-9 : ℤ) :=
  (size_add_lt_iff (a := 2) (k := 9)).mpr threshold_units.middle_lower_lt

/-- But it is above the last number of ten digits that is. -/
theorem lt_middle_positionalFrom :
    2 * (10 ^ (-9 : ℤ) - 10 ^ (-9 - (10 : ℕ) : ℤ)) <
      size (positionalFrom - 1) + size positionalFrom := by
  have hmiddle := (mul_ten_le_size_add_iff (a := 2 * 10 ^ 10 - 1) (k := 19)).mpr
    threshold_units.le_middle_lower
  norm_num at hmiddle ⊢
  linarith

/-- The double at the upper threshold is `10 ^ 10`. -/
theorem size_positionalBelow : size positionalBelow = 10 ^ (10 : ℤ) := by
  rw [size, div_eq_iff cast_unitsPerOne_pos.ne', threshold_units.upper_units]
  push_cast
  rfl

/-- The half-way point in front of it is above the last number of twelve digits below it. -/
theorem lt_middle_positionalBelow :
    2 * (10 ^ (10 : ℤ) - 10 ^ (10 - (12 : ℕ) : ℤ)) <
      size (positionalBelow - 1) + size positionalBelow := by
  have hmiddle := (mul_ten_le_size_add_iff (a := 2 * 10 ^ 12 - 1) (k := 2)).mpr
    threshold_units.le_middle_upper
  norm_num at hmiddle ⊢
  linarith

theorem ten_le_largest : 10 ^ (10 : ℤ) ≤ largest := by
  have hbefore := positionalBelow_lt_infinityOrdinal
  rw [← size_positionalBelow]
  exact size_le_size.mpr (by omega)

theorem positionalFrom_le_iff {n : ℕ} : positionalFrom ≤ n ↔ 10 ^ (-9 : ℤ) ≤ size n := by
  constructor
  · intro h
    exact le_trans le_size_positionalFrom (size_le_size.mpr h)
  · intro h
    by_contra hbefore
    have hn : size n ≤ size (positionalFrom - 1) := size_le_size.mpr (by omega)
    have hnext : size (positionalFrom - 1) ≤ size positionalFrom := size_le_size.mpr (by omega)
    have := middle_positionalFrom_lt
    linarith

theorem lt_positionalBelow_iff {n : ℕ} : n < positionalBelow ↔ size n < 10 ^ (10 : ℤ) := by
  rw [← size_positionalBelow, size_lt_size]

/-- The digits of a double stand in their places exactly from `10 ^ (-9)` on and below `10 ^ 10`. -/
theorem isPositional_iff {n : ℕ} :
    isPositional n = true ↔ 10 ^ (-9 : ℤ) ≤ size n ∧ size n < 10 ^ (10 : ℤ) := by
  rw [isPositional, Bool.and_eq_true, decide_eq_true_iff, decide_eq_true_iff,
    positionalFrom_le_iff, lt_positionalBelow_iff]

theorem isPositional_of_lt {n : ℕ} (h : size n < 10 ^ (-9 : ℤ)) : isPositional n = false :=
  Bool.eq_false_of_not_eq_true fun hin => absurd (isPositional_iff.mp hin).1 (not_le.mpr h)

theorem isPositional_of_le {n : ℕ} (h : 10 ^ (10 : ℤ) ≤ size n) : isPositional n = false :=
  Bool.eq_false_of_not_eq_true fun hin => absurd (isPositional_iff.mp hin).2 (not_lt.mpr h)

theorem positionalFrom_le_of_around {n : ℕ} {v : ℚ} (h : Around n v) (hv : 10 ^ (-9 : ℤ) ≤ v) :
    positionalFrom ≤ n :=
  h.le_of_middle_lt (lt_of_lt_of_le middle_positionalFrom_lt (by linarith))

/-! ## What is shown -/

/-- How many significant digits are shown at most. -/
def shownDigits (n : ℕ) : ℕ := if isPositional n then positionalDigits else scientificDigits

/-- The decimal that is shown for the double with ordinal `n`. -/
def shown (n : ℕ) : Decimal :=
  ((⟨atoms n, -1074⟩ : Decimal).significant (shownDigits n)).trim

theorem shownDigits_pos (n : ℕ) : 0 < shownDigits n := by
  unfold shownDigits
  split <;> decide

section

variable {n : ℕ}

theorem atoms_ne_zero (hn : 0 < n) : atoms n ≠ 0 :=
  (Nat.mul_pos (units_pos hn) (five_pow_pos 1074)).ne'

theorem trimmed_shown (hn : 0 < n) : (shown n).Trimmed :=
  Decimal.trimmed_trim
    (Decimal.coefficient_significant_ne_zero _ (shownDigits_pos n) (atoms_ne_zero hn))

theorem isRounding_shown (hn : 0 < n) : IsRounding (shownDigits n) (size n) (shown n).value := by
  have hrounds := Decimal.isRounding_significant (shownDigits n) (d := ⟨atoms n, -1074⟩)
    (atoms_ne_zero hn)
  rwa [value_atoms, ← Decimal.value_trim] at hrounds

/-- The digits in their places are those of the rounded value, though that is read as a double
before it is written. -/
theorem magnitude_eq (hn : 0 < n) :
    magnitude n = if isPositional n then (shown n).positional else (shown n).scientific := by
  unfold magnitude shown shownDigits
  by_cases hpositional : isPositional n = true
  · simp only [if_pos hpositional]
    have hrounds := Decimal.isRounding_significant positionalDigits (d := ⟨atoms n, -1074⟩)
      (atoms_ne_zero hn)
    have hnonzero := Decimal.coefficient_significant_ne_zero positionalDigits
      (d := ⟨atoms n, -1074⟩) (by decide) (atoms_ne_zero hn)
    have hdigits := Decimal.coefficient_significant_le positionalDigits ⟨atoms n, -1074⟩
    have hexponent : ((⟨atoms n, -1074⟩ : Decimal).significant positionalDigits).exponent =
        ((Decimal.digitCount (atoms n) - positionalDigits : ℕ) : ℤ) - 1074 := by
      simp only [Decimal.significant]
      ring
    rw [value_atoms] at hrounds
    generalize (⟨atoms n, -1074⟩ : Decimal).significant positionalDigits = d at *
    obtain ⟨hlow, hhigh⟩ := isPositional_iff.mp hpositional
    have hfinite : d.ordinal < infinityOrdinal :=
      Decimal.ordinal_lt (le_trans (hrounds.le_ten (size_pos hn) hhigh) ten_le_largest)
    have hlarge := positionalFrom_le_of_around (Decimal.around_ordinal hfinite)
      (hrounds.ten_le (by decide) (size_pos hn) hlow)
    rw [threshold_units.lower] at hlarge
    exact Decimal.ordinalText_ordinal hexponent hnonzero
      (lt_of_le_of_lt hdigits (by decide)) (by omega) hfinite
  · simp only [if_neg hpositional]

end

end Display

end Calculator
