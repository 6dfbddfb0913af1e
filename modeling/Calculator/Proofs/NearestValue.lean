-- The double nearest to a decimal, as a law on exact values: it is the one that
-- the value lies around, so no other double is nearer, and a value that is not
-- above the largest double has a finite one. This is what is known of a number
-- that is typed, whatever its digits are.
import Mathlib
import Calculator.Proofs.DoubleOrder
import Calculator.Proofs.NearestDouble
import Calculator.Proofs.SignificantDigits

namespace Calculator

namespace Double

/-! ## What the search finds -/

section

variable {num den low : Nat}

theorem units_injective {m n : Nat} (h : units m = units n) : m = n := by
  rcases Nat.lt_trichotomy m n with hlt | heq | hgt
  · exact absurd h (Nat.ne_of_lt (units_lt_units hlt))
  · exact heq
  · exact absurd h (Nat.ne_of_gt (units_lt_units hgt))

/-- Up to the middle between two doubles the lower one is near. -/
theorem near_low (hden : 0 < den) (hbelow : units low * den ≤ num)
    (hmiddle : 2 * num ≤ (units low + units (low + 1)) * den)
    (heven : 2 * num = (units low + units (low + 1)) * den → low % 2 = 0) : Near low num den := by
  have hprevious : units (low - 1) * den ≤ units low * den :=
    Nat.mul_le_mul_right den (units_le_units (Nat.sub_le low 1))
  refine ⟨?_, hmiddle, fun heq => ?_, heven⟩
  · rw [Nat.add_mul]
    omega
  · -- Only zero is not farther from the value than its neighbour below.
    rw [Nat.add_mul] at heq
    have hunits : units (low - 1) = units low :=
      Nat.eq_of_mul_eq_mul_right hden (by omega)
    have := units_injective hunits
    omega

theorem near_next (hden : 0 < den) (habove : num < units (low + 1) * den)
    (hmiddle : (units low + units (low + 1)) * den ≤ 2 * num)
    (heven : (units low + units (low + 1)) * den = 2 * num → (low + 1) % 2 = 0) :
    Near (low + 1) num den := by
  have hnext : units (low + 1) * den < units (low + 1 + 1) * den :=
    Nat.mul_lt_mul_of_pos_right (units_lt_succ (low + 1)) hden
  refine ⟨hmiddle, ?_, heven, fun heq => ?_⟩
  · rw [Nat.add_mul]
    omega
  · rw [Nat.add_mul] at heq
    omega

theorem largestFrom_of_forall {fits : ℕ → Bool} {bits low : ℕ}
    (h : ∀ n < low + 2 ^ bits, fits n = true) : largestFrom fits bits low = low + 2 ^ bits - 1 := by
  induction bits generalizing low with
  | zero => rfl
  | succ bits ih =>
    have hdouble : low + 2 ^ (bits + 1) = low + 2 ^ bits + 2 ^ bits := by
      rw [Nat.pow_succ]
      omega
    have hpower := Nat.two_pow_pos bits
    unfold largestFrom
    rw [if_pos (h _ (by omega)), hdouble]
    exact ih fun n hn => h n (by omega)

theorem lt_units_of_nearestOrdinal (hfinite : nearestOrdinal num den < infinityOrdinal) :
    num < units (2 ^ 63) * den := by
  by_contra hlarge
  have hfits : ∀ n < 0 + 2 ^ 63, decide (units n * den ≤ num) = true := fun n hn =>
    decide_eq_true (Nat.le_trans (Nat.mul_le_mul_right den (units_le_units (by omega)))
      (Nat.not_lt.mp hlarge))
  have hfloor : floorOrdinal num den = 0 + 2 ^ 63 - 1 := largestFrom_of_forall hfits
  have hinfinity : infinityOrdinal ≤ 0 + 2 ^ 63 - 1 := by decide
  unfold nearestOrdinal at hfinite
  simp only at hfinite
  rw [hfloor] at hfinite
  split at hfinite
  · omega
  · split at hfinite
    · omega
    · split at hfinite <;> omega

theorem floorOrdinal_spec (h : num < units (2 ^ 63) * den) :
    units (floorOrdinal num den) * den ≤ num ∧ num < units (floorOrdinal num den + 1) * den := by
  have hfirst : units 0 * den ≤ num := by simp
  have hlast : num < units (0 + 2 ^ 63) * den := by rwa [Nat.zero_add]
  have hspec := largestFrom_spec (fun k => units k * den ≤ num) 63 0
    (decide_eq_true hfirst) (decide_eq_false (Nat.not_le.mpr hlast))
  exact ⟨of_decide_eq_true hspec.1, Nat.not_le.mp (of_decide_eq_false hspec.2)⟩

/-- The value is near the double that is found, as long as that is finite. -/
theorem near_nearestOrdinal (hden : 0 < den)
    (hfinite : nearestOrdinal num den < infinityOrdinal) :
    Near (nearestOrdinal num den) num den := by
  obtain ⟨hbelow, habove⟩ := floorOrdinal_spec (lt_units_of_nearestOrdinal hfinite)
  unfold nearestOrdinal at hfinite ⊢
  simp only at hfinite ⊢
  rw [Nat.min_eq_left (by omega)]
  generalize floorOrdinal num den = low at *
  split
  · exact near_low hden hbelow (by omega) (by omega)
  · split
    · exact near_next hden habove (by omega) (by omega)
    · split
      · exact near_low hden hbelow (by omega) (by omega)
      · exact near_next hden habove (by omega) (by omega)

/-- A value for which no finite double is found lies half-way to infinity or farther. -/
theorem middle_le_of_nearestOrdinal (hinfinite : infinityOrdinal ≤ nearestOrdinal num den) :
    (units (infinityOrdinal - 1) + units infinityOrdinal) * den ≤ 2 * num := by
  have hbefore : units (infinityOrdinal - 1) * den ≤ units infinityOrdinal * den :=
    Nat.mul_le_mul_right den (units_le_units (Nat.sub_le _ 1))
  rcases Nat.lt_or_ge num (units (2 ^ 63) * den) with hsearch | hlarge
  · obtain ⟨hbelow, -⟩ := floorOrdinal_spec hsearch
    have hfar : infinityOrdinal ≤ floorOrdinal num den ∨
        floorOrdinal num den + 1 = infinityOrdinal ∧
          (units (floorOrdinal num den) + units (floorOrdinal num den + 1)) * den ≤ 2 * num := by
      unfold nearestOrdinal at hinfinite
      simp only at hinfinite
      split at hinfinite
      · omega
      · split at hinfinite
        · omega
        · split at hinfinite <;> omega
    rcases hfar with hfar | ⟨hnext, hmiddle⟩
    · have hlast : units infinityOrdinal * den ≤ units (floorOrdinal num den) * den :=
        Nat.mul_le_mul_right den (units_le_units hfar)
      rw [Nat.add_mul]
      omega
    · rwa [← hnext, Nat.add_sub_cancel]
  · have hlast : units infinityOrdinal * den ≤ units (2 ^ 63) * den :=
      Nat.mul_le_mul_right den (units_le_units (by decide))
    rw [Nat.add_mul]
    omega

end

/-! ## Values around a double -/

/-- The value of the largest double. -/
def largest : ℚ := size (infinityOrdinal - 1)

/-- From `2 ^ 52` units on, the step to the next double is one part in `2 ^ 52` at most. -/
theorem step_le_units {n : ℕ} (hn : 2 ^ 52 ≤ n) : 2 ^ 52 * 2 ^ (n / 2 ^ 52 - 1) ≤ units n := by
  rw [units, if_neg (Nat.not_lt.mpr hn)]
  exact Nat.mul_le_mul_right _ (Nat.le_add_right _ _)

/-- A value between the two half-way points around the double with ordinal `n`. -/
structure Around (n : Nat) (v : ℚ) : Prop where
  low : size (n - 1) + size n ≤ 2 * v
  high : 2 * v ≤ size n + size (n + 1)

/-- No double is nearer to a value than the one that it lies around. -/
theorem Around.dist_le {n : Nat} {v : ℚ} (h : Around n v) (k : Nat) :
    |size n - v| ≤ |size k - v| := by
  obtain ⟨hlow, hhigh⟩ := h
  rcases Nat.lt_trichotomy k n with hk | rfl | hk
  · have hbefore : size k ≤ size (n - 1) := size_le_size.mpr (by omega)
    have hself : size (n - 1) ≤ size n := size_le_size.mpr (by omega)
    rw [abs_of_nonpos (a := size k - v) (by linarith), abs_le]
    constructor <;> linarith
  · exact le_rfl
  · have hafter : size (n + 1) ≤ size k := size_le_size.mpr hk
    have hself : size n ≤ size (n + 1) := size_le_size.mpr (by omega)
    rw [abs_of_nonneg (a := size k - v) (by linarith), abs_le]
    constructor <;> linarith

theorem Around.le_of_middle_lt {n k : ℕ} {v : ℚ} (h : Around n v)
    (hk : size (k - 1) + size k < 2 * v) : k ≤ n := by
  by_contra hbefore
  have hself : size n ≤ size (k - 1) := size_le_size.mpr (by omega)
  have hnext : size (n + 1) ≤ size k := size_le_size.mpr (by omega)
  have hhigh := h.high
  linarith

theorem Around.lt_of_lt_middle {n k : ℕ} {v : ℚ} (h : Around n v)
    (hk : 2 * v < size (k - 1) + size k) : n < k := by
  by_contra hafter
  have hself : size k ≤ size n := size_le_size.mpr (by omega)
  have hbefore : size (k - 1) ≤ size (n - 1) := size_le_size.mpr (by omega)
  have hlow := h.low
  linarith

theorem Near.around {n num den : Nat} {v : ℚ} (h : Near n num den) (hden : 0 < den)
    (hv : (num : ℚ) = v * unitsPerOne * den) : Around n v := by
  have hlow : ((units (n - 1) : ℚ) + units n) * den ≤ 2 * num := by exact_mod_cast h.low
  have hhigh : 2 * (num : ℚ) ≤ (units n + units (n + 1)) * den := by exact_mod_cast h.high
  have hden' : (0 : ℚ) < den := by exact_mod_cast hden
  rw [hv] at hlow hhigh
  have hone := cast_unitsPerOne_pos
  constructor
  · rw [size, size, ← add_div, div_le_iff₀ hone]
    apply le_of_mul_le_mul_right _ hden'
    linarith
  · rw [size, size, ← add_div, le_div_iff₀ hone]
    apply le_of_mul_le_mul_right _ hden'
    linarith

/-! ## Sizes and powers of ten -/

theorem scale_units : (unitsPerOne : ℚ) * (5 ^ 1074 : ℕ) = 10 ^ (1074 : ℤ) := by
  have hsplit : ∀ k : ℕ, ((2 ^ k : ℕ) : ℚ) * (5 ^ k : ℕ) = 10 ^ (k : ℤ) := by
    intro k
    rw [zpow_natCast, ← Nat.cast_mul, ← Nat.mul_pow]
    push_cast
    rfl
  have h := hsplit 1074
  rwa [unitsPerOne_eq] at h

section

variable {a k m n : ℕ}

theorem ten_neg (k : ℕ) : (10 : ℚ) ^ (-(k : ℤ)) * (10 ^ k : ℕ) = 1 := by
  rw [zpow_neg, zpow_natCast, Nat.cast_pow, Nat.cast_ofNat]
  exact inv_mul_cancel₀ (by positivity)

theorem size_mul_unitsPerOne (n : ℕ) : size n * unitsPerOne = units n :=
  div_mul_cancel₀ _ cast_unitsPerOne_pos.ne'

/-- A multiple of a power of ten is compared with a sum of sizes by counting units. -/
theorem mul_ten_le_size_add_iff :
    (a : ℚ) * 10 ^ (-(k : ℤ)) ≤ size m + size n ↔
      a * unitsPerOne ≤ (units m + units n) * 10 ^ k := by
  have hfactor : (0 : ℚ) < unitsPerOne * (10 ^ k : ℕ) :=
    mul_pos cast_unitsPerOne_pos (Nat.cast_pos.mpr (Nat.pow_pos (by decide)))
  have hleft : (a : ℚ) * 10 ^ (-(k : ℤ)) * (unitsPerOne * (10 ^ k : ℕ)) =
      (a * unitsPerOne : ℕ) := by
    rw [Nat.cast_mul]
    linear_combination (a : ℚ) * unitsPerOne * ten_neg k
  have hright : (size m + size n) * (unitsPerOne * (10 ^ k : ℕ)) =
      ((units m + units n) * 10 ^ k : ℕ) := by
    rw [Nat.cast_mul, Nat.cast_add, ← size_mul_unitsPerOne, ← size_mul_unitsPerOne]
    ring
  rw [← mul_le_mul_iff_of_pos_right hfactor, hleft, hright, Nat.cast_le]

theorem size_add_lt_iff :
    size m + size n < (a : ℚ) * 10 ^ (-(k : ℤ)) ↔
      (units m + units n) * 10 ^ k < a * unitsPerOne := by
  rw [← not_le, mul_ten_le_size_add_iff, not_le]

theorem mul_ten_pow_le_size_add_iff {e : ℕ} :
    (a : ℚ) * 10 ^ (e : ℤ) ≤ size m + size n ↔ a * 10 ^ e * unitsPerOne ≤ units m + units n := by
  have h := mul_ten_le_size_add_iff (a := a * 10 ^ e) (k := 0) (m := m) (n := n)
  rwa [Nat.cast_mul, Nat.cast_pow, Nat.cast_ofNat, Nat.cast_zero, neg_zero, zpow_zero, mul_one,
    Nat.pow_zero, Nat.mul_one, ← zpow_natCast] at h

theorem ten_le_size_iff : (10 : ℚ) ^ (-(k : ℤ)) ≤ size n ↔ unitsPerOne ≤ units n * 10 ^ k := by
  have h := mul_ten_le_size_add_iff (a := 1) (k := k) (m := 0) (n := n)
  rwa [Nat.cast_one, one_mul, size_zero, zero_add, units_zero, Nat.zero_add, Nat.one_mul] at h

end

/-! ## The largest double -/

/-- Infinity and the largest double in units, between numbers of ten digits. -/
theorem infinity_units :
    units infinityOrdinal ≤ 10 ^ 309 * unitsPerOne ∧
      2 * 1797693134 * 10 ^ 299 * unitsPerOne ≤
        units (infinityOrdinal - 1) + units (infinityOrdinal - 1) ∧
      units (infinityOrdinal - 1) + units infinityOrdinal <
        2 * 1797693135 * 10 ^ 299 * unitsPerOne := by
  decide +kernel

theorem size_infinity_le {e : ℕ} (h : 309 ≤ e) : size infinityOrdinal ≤ 10 ^ e := by
  have hunits : units infinityOrdinal ≤ 10 ^ e * unitsPerOne := by
    have hbound := infinity_units.1
    have hpower := Nat.pow_le_pow_right (show 0 < 10 by decide) h
    generalize 10 ^ 309 = power at hbound hpower
    exact Nat.le_trans hbound (Nat.mul_le_mul_right unitsPerOne hpower)
  rw [size, div_le_iff₀ cast_unitsPerOne_pos]
  exact_mod_cast hunits

theorem largest_bounds : 1797693134 * 10 ^ (299 : ℤ) ≤ largest ∧
    size (infinityOrdinal - 1) + size infinityOrdinal < 2 * (1797693135 * 10 ^ (299 : ℤ)) := by
  have hlow := (mul_ten_pow_le_size_add_iff (a := 2 * 1797693134) (e := 299)).mpr
    infinity_units.2.1
  have hhigh : size (infinityOrdinal - 1) + size infinityOrdinal <
      (2 * 1797693135 : ℕ) * 10 ^ ((299 : ℕ) : ℤ) :=
    not_le.mp fun hle => absurd (mul_ten_pow_le_size_add_iff.mp hle)
      (Nat.not_le.mpr infinity_units.2.2)
  unfold largest
  rw [Nat.cast_ofNat] at hlow hhigh
  generalize (10 : ℚ) ^ (299 : ℤ) = step at *
  push_cast at hlow hhigh
  exact ⟨by linarith, by linarith⟩

end Double

namespace Decimal

open Double

/-! ## Decimals -/

/-- A fraction of less than half a unit, as the sizes in bits tell. -/
theorem half_unit {c k : ℕ} (h : c.log2 + 1076 ≤ 3 * k) : 2 * (c * unitsPerOne) < 10 ^ k := by
  have hlog : c < 2 ^ (c.log2 + 1) := Nat.lt_log2_self
  have hpower : ∀ j k : ℕ, 2 * (2 ^ j * 2 ^ k) = 2 ^ (j + k + 1) := by
    intro j k
    rw [← Nat.pow_add, ← Nat.pow_succ']
  have hunits := hpower (c.log2 + 1) 1074
  rw [unitsPerOne_eq] at hunits
  calc 2 * (c * unitsPerOne) < 2 * (2 ^ (c.log2 + 1) * unitsPerOne) :=
        Nat.mul_lt_mul_of_pos_left (Nat.mul_lt_mul_of_pos_right hlog unitsPerOne_pos) Nat.two_pos
    _ = 2 ^ (c.log2 + 1076) := hunits
    _ ≤ 2 ^ (3 * k) := Nat.pow_le_pow_right Nat.two_pos h
    _ = 8 ^ k := Nat.pow_mul 2 3 k
    _ ≤ 10 ^ k := Nat.pow_le_pow_left (by decide) k

/-- How a decimal is read: by its size alone when that is enough, and otherwise by the search, as a
fraction of units. -/
theorem ordinal_cases (d : Decimal) :
    (2 * (d.value * unitsPerOne) < 1 ∧ d.ordinal = 0) ∨
      (size infinityOrdinal ≤ d.value ∧ d.ordinal = infinityOrdinal) ∨
      ∃ num den : ℕ, 0 < den ∧ (num : ℚ) = d.value * unitsPerOne * den ∧
        d.ordinal = nearestOrdinal num den := by
  obtain ⟨c, x⟩ := d
  unfold ordinal
  rw [unitsPerOne_eq]
  simp only
  by_cases hc : c = 0
  · rw [if_pos hc]
    refine Or.inl ⟨?_, rfl⟩
    simp [value, hc]
  · rw [if_neg hc]
    cases x with
    | ofNat e =>
      simp only
      by_cases hlarge : 309 ≤ e
      · rw [if_pos hlarge]
        refine Or.inr (Or.inl ⟨?_, rfl⟩)
        have hone : (1 : ℚ) ≤ c := by exact_mod_cast Nat.one_le_iff_ne_zero.mpr hc
        calc size infinityOrdinal ≤ 10 ^ e := size_infinity_le hlarge
          _ ≤ c * 10 ^ e := le_mul_of_one_le_left (by positivity) hone
          _ = value ⟨c, .ofNat e⟩ := by simp [value]
      · rw [if_neg hlarge]
        refine Or.inr (Or.inr ⟨c * 10 ^ e * unitsPerOne, 1, Nat.one_pos, ?_, rfl⟩)
        rw [value, Int.ofNat_eq_natCast, zpow_natCast]
        push_cast
        rw [mul_one]
    | negSucc e =>
      have hvalue : value ⟨c, .negSucc e⟩ = c / 10 ^ (e + 1) := by
        rw [value, zpow_negSucc, div_eq_mul_inv]
      simp only
      by_cases hsmall : c.log2 + 1076 ≤ 3 * (e + 1)
      · rw [if_pos hsmall]
        have hden : (0 : ℚ) < 10 ^ (e + 1) := by positivity
        have hless : 2 * ((c : ℚ) * unitsPerOne) < 10 ^ (e + 1) := by
          exact_mod_cast half_unit hsmall
        refine Or.inl ⟨?_, rfl⟩
        rw [hvalue, div_mul_eq_mul_div, mul_div_assoc', div_lt_one hden]
        exact hless
      · rw [if_neg hsmall]
        have hden : (10 : ℚ) ^ (e + 1) ≠ 0 := by positivity
        refine Or.inr (Or.inr ⟨c * unitsPerOne, 10 ^ (e + 1), Nat.pow_pos (by omega), ?_, rfl⟩)
        rw [hvalue, div_mul_eq_mul_div]
        push_cast
        rw [div_mul_cancel₀ _ hden]

section

variable {d : Decimal}

theorem ordinal_le (d : Decimal) : d.ordinal ≤ infinityOrdinal := by
  rcases d.ordinal_cases with ⟨-, h⟩ | ⟨-, h⟩ | ⟨num, den, -, -, h⟩
  · rw [h]; exact Nat.zero_le _
  · rw [h]
  · rw [h, nearestOrdinal]; exact Nat.min_le_right _ _

theorem around_ordinal (hfinite : d.ordinal < infinityOrdinal) : Around d.ordinal d.value := by
  rcases d.ordinal_cases with ⟨hhalf, h⟩ | ⟨-, h⟩ | ⟨num, den, hden, hnum, h⟩
  · have hvalue := d.value_nonneg
    have hunits := cast_unitsPerOne_pos
    rw [h]
    constructor
    · rw [size_zero]
      linarith
    · rw [size_zero, size_one, zero_add, le_div_iff₀ hunits]
      linarith
  · omega
  · rw [h] at hfinite ⊢
    exact (near_nearestOrdinal hden hfinite).around hden hnum

theorem holds_ordinal {j : ℕ} (hexponent : d.exponent = (j : ℤ) - 1074) (hpos : 0 < d.ordinal)
    (hfinite : d.ordinal < infinityOrdinal) :
    (reach d.ordinal).holds (d.coefficient * 10 ^ j) = true := by
  rcases d.ordinal_cases with ⟨-, h⟩ | ⟨-, h⟩ | ⟨num, den, hden, hnum, h⟩
  · omega
  · omega
  · rw [h] at hfinite ⊢
    have hatoms : num * 5 ^ 1074 = d.coefficient * 10 ^ j * den := by
      have hscale := scale_units
      generalize (5 ^ 1074 : ℕ) = fives at hscale ⊢
      have hvalues : (num : ℚ) * fives = d.coefficient * 10 ^ j * den := by
        calc (num : ℚ) * fives
            = d.coefficient * 10 ^ d.exponent * (unitsPerOne * fives) * den := by
              rw [hnum, value]
              ring
          _ = d.coefficient * (10 ^ d.exponent * 10 ^ (1074 : ℤ)) * den := by
              rw [hscale]
              ring
          _ = d.coefficient * 10 ^ j * den := by
              rw [← zpow_add₀ (by norm_num), hexponent, sub_add_cancel, zpow_natCast]
      exact_mod_cast hvalues
    exact (near_iff_holds hden hatoms).mp (near_nearestOrdinal hden hfinite)

theorem ordinal_lt (h : d.value ≤ largest) : d.ordinal < infinityOrdinal := by
  unfold largest at h
  rcases d.ordinal_cases with ⟨-, hzero⟩ | ⟨hlarge, -⟩ | ⟨num, den, hden, hnum, hread⟩
  · rw [hzero]
    decide
  · have hnext : size (infinityOrdinal - 1) < size infinityOrdinal := size_lt_size.mpr (by decide)
    linarith
  · rw [hread]
    by_contra hinfinite
    have hmiddle := middle_le_of_nearestOrdinal (not_lt.mp hinfinite)
    have hmiddle' :
        ((units (infinityOrdinal - 1) : ℚ) + units infinityOrdinal) * den ≤ 2 * num := by
      exact_mod_cast hmiddle
    have hden' : (0 : ℚ) < den := Nat.cast_pos.mpr hden
    have hnext : (units (infinityOrdinal - 1) : ℚ) < units infinityOrdinal :=
      Nat.cast_lt.mpr (units_lt_units (by decide))
    rw [size, le_div_iff₀ cast_unitsPerOne_pos] at h
    rw [hnum] at hmiddle'
    generalize units (infinityOrdinal - 1) = last at h hmiddle' hnext
    have hfar := mul_le_mul_of_nonneg_right h hden'.le
    have hless := mul_lt_mul_of_pos_right hnext hden'
    linarith

end

end Decimal

end Calculator
