-- The exact value of a double, and the order of doubles. A finite double is told
-- by its sign and its ordinal, and comparing two finite doubles compares their
-- values.
import Mathlib
import Calculator.Proofs.DoubleBits
import Calculator.Proofs.NearestDouble

namespace Calculator

namespace Double

open Float.Model Float.Model.UnpackedFloat

/-! ## The value of an ordinal -/

/-- How many units make one. -/
@[irreducible]
def unitsPerOne : ℕ := 2 ^ 1074

theorem unitsPerOne_eq : 2 ^ 1074 = unitsPerOne := by
  delta unitsPerOne
  with_reducible rfl

theorem unitsPerOne_pos : 0 < unitsPerOne := by
  have h := Nat.two_pow_pos 1074
  rwa [unitsPerOne_eq] at h

theorem cast_unitsPerOne_pos : (0 : ℚ) < unitsPerOne := Nat.cast_pos.mpr unitsPerOne_pos

/-- The exact value of the double with ordinal `n`. -/
def size (n : ℕ) : ℚ := units n / unitsPerOne

/-- The exact value of a finite double. -/
def value (x : Float) : ℚ := if isNegative x then -size (ordinal x) else size (ordinal x)

theorem size_zero : size 0 = 0 := by simp [size]

theorem size_one : size 1 = 1 / unitsPerOne := by
  rw [size, show units 1 = 1 by decide, Nat.cast_one]

theorem size_lt_size {m n : ℕ} : size m < size n ↔ m < n := by
  have hmono : StrictMono units := fun _ _ h => units_lt_units h
  rw [size, size, div_lt_div_iff_of_pos_right cast_unitsPerOne_pos, Nat.cast_lt, hmono.lt_iff_lt]

theorem size_le_size {m n : ℕ} : size m ≤ size n ↔ m ≤ n := by
  rw [← not_lt, size_lt_size, not_lt]

theorem size_pos {n : ℕ} (h : 0 < n) : 0 < size n := by
  rw [← size_zero]
  exact size_lt_size.mpr h

theorem size_nonneg (n : ℕ) : 0 ≤ size n := by
  rw [← size_zero]
  exact size_le_size.mpr (Nat.zero_le n)

/-! ## The parts of a finite double -/

/-- The mantissa of a double, as a whole number. -/
def mantissa (n : Nat) : Nat := if n < 2 ^ 52 then n else 2 ^ 52 + n % 2 ^ 52

/-- The exponent of the power of two that the mantissa of a double counts. -/
def power (n : Nat) : Int := (n / 2 ^ 52 - 1 : Nat) - 1074

/-- The sign of a double. -/
def signOf (negative : Bool) : Sign := if negative then .negative else .positive

theorem mantissa_pos {n : Nat} (h : n ≠ 0) : 0 < mantissa n := by
  unfold mantissa
  split <;> omega

/-- The parts of a finite double. -/
def finiteParts (negative : Bool) (n : Nat) : UnpackedFloat :=
  if h : n = 0 then .zero (signOf negative)
  else .finite (signOf negative) (mantissa n) (power n) (mantissa_pos h)

theorem toNat_exponentField {n : Nat} (h : n < infinityOrdinal) :
    (BitVec.ofNat 11 (n / 2 ^ 52)).toNat = n / 2 ^ 52 := by
  unfold infinityOrdinal at h
  rw [BitVec.toNat_ofNat]
  omega

theorem exponentField_ne_top {n : Nat} (h : n < infinityOrdinal) :
    BitVec.ofNat 11 (n / 2 ^ 52) ≠ -1#11 := by
  intro heq
  have hfield := toNat_exponentField h
  have hall : (-1#11).toNat = 2 ^ 11 - 1 := rfl
  unfold infinityOrdinal at h
  rw [heq, hall] at hfield
  omega

theorem parts_eq_finiteParts (negative : Bool) {n : Nat} (h : n < infinityOrdinal) :
    parts (signOf negative) (BitVec.ofNat 11 (n / 2 ^ 52)) (BitVec.ofNat 52 n) =
      finiteParts negative n := by
  have hfield := toNat_exponentField h
  have hrest : (BitVec.ofNat 52 n).toNat = n % 2 ^ 52 := BitVec.toNat_ofNat ..
  have hlow : BitVec.ofNat 11 (n / 2 ^ 52) = 0#11 ↔ n < 2 ^ 52 := by
    rw [← BitVec.toNat_inj, hfield]
    simp
  have hnone : BitVec.ofNat 52 n = 0#52 ↔ n % 2 ^ 52 = 0 := by
    rw [← BitVec.toNat_inj, hrest]
    simp
  rw [parts_eq, if_neg (exponentField_ne_top h)]
  unfold finiteParts
  by_cases hsmall : n < 2 ^ 52
  · rw [if_pos (hlow.mpr hsmall)]
    by_cases hzero : n = 0
    · rw [dif_pos (hnone.mpr (by omega)), dif_pos hzero]
    · rw [dif_neg (mt hnone.mp (by omega)), dif_neg hzero]
      congr 1
      · rw [hrest, mantissa, if_pos hsmall]; omega
      · rw [hfield, power]; omega
  · rw [if_neg (mt hlow.mp hsmall), dif_neg (by omega)]
    congr 1
    · rw [hrest, mantissa, if_neg hsmall]
    · rw [hfield, power]; omega

theorem unpack_ofOrdinal (negative : Bool) {n : Nat} (h : n < infinityOrdinal) :
    (ofOrdinal negative n).toModel.unpack = finiteParts negative n := by
  have hsize : n < 2 ^ 63 := Nat.lt_trans h (by decide)
  rw [ofOrdinal_eq_ofParts negative hsize, ← parts_eq_finiteParts negative h]
  calc (ofParts (parts (signOf negative) _ _)).toModel.unpack
      = unpack layout (pack layout (parts (signOf negative) (BitVec.ofNat 11 (n / 2 ^ 52))
          (BitVec.ofNat 52 n))) := rfl
    _ = parts (signOf negative) (BitVec.ofNat 11 (n / 2 ^ 52)) (BitVec.ofNat 52 n) := by
        rw [pack_parts fun hnan => exponentField_ne_top h hnan.1]
        rfl

theorem unpack_toModel {x : Float} (hx : x.isFinite = true) :
    x.toModel.unpack = finiteParts (isNegative x) (ordinal x) := by
  have h := unpack_ofOrdinal (isNegative x) (of_isFinite hx).2.2
  rwa [ofOrdinal_ordinal] at h

/-! ## The sign and the ordinal of a double -/

theorem toBits_ofOrdinal (negative : Bool) {n : Nat} (h : n < infinityOrdinal) :
    (ofOrdinal negative n).toBits.toNat = if negative then 2 ^ 63 + n else n := by
  have hsize : n < 2 ^ 63 := Nat.lt_trans h (by decide)
  have hbits : (ofOrdinal negative n).toBits.toBitVec = packComponents layout (signOf negative)
      (BitVec.ofNat 11 (n / 2 ^ 52)) (BitVec.ofNat 52 n) := by
    rw [ofOrdinal_eq_ofParts negative hsize,
      ← pack_parts fun hnan => exponentField_ne_top h hnan.1]
    rfl
  rw [← UInt64.toNat_toBitVec, hbits, toNat_packComponents, toNat_exponentField h,
    BitVec.toNat_ofNat]
  cases negative with
  | false =>
    have hsign : (signOf false).toBitVec.toNat = 0 := rfl
    rw [hsign]
    simp only [Bool.false_eq_true, if_false]
    omega
  | true =>
    have hsign : (signOf true).toBitVec.toNat = 1 := rfl
    rw [hsign]
    simp only [if_true]
    omega

theorem isNegative_ofOrdinal (negative : Bool) {n : Nat} (h : n < infinityOrdinal) :
    isNegative (ofOrdinal negative n) = negative := by
  have hsize : n < 2 ^ 63 := Nat.lt_trans h (by decide)
  rw [isNegative, toBits_ofOrdinal negative h]
  cases negative with
  | false => simpa using hsize
  | true => simp

theorem ordinal_ofOrdinal (negative : Bool) {n : Nat} (h : n < infinityOrdinal) :
    ordinal (ofOrdinal negative n) = n := by
  have hsize : n < 2 ^ 63 := Nat.lt_trans h (by decide)
  rw [ordinal, toBits_ofOrdinal negative h]
  cases negative with
  | false => exact Nat.mod_eq_of_lt hsize
  | true =>
    simp only [if_true]
    omega

theorem isFinite_ofOrdinal (negative : Bool) {n : Nat} (h : n < infinityOrdinal) :
    (ofOrdinal negative n).isFinite = true := by
  have hparts : (finiteParts negative n).isFinite = true := by
    unfold finiteParts
    split <;> rfl
  rw [← unpack_ofOrdinal negative h] at hparts
  exact hparts

/-! ## Comparing -/

/-- A double as a whole number with the sign of the double: the order of these numbers is the order
of the doubles. -/
def signedOrdinal (negative : Bool) (n : Nat) : Int := if negative then -n else n

/-- A larger ordinal has a larger exponent, or the same exponent and a larger mantissa. -/
theorem compare_power_mantissa (m n : Nat) :
    (compare (power m) (power n)).then (compare (mantissa m) (mantissa n)) = compare m n := by
  have horder : ∀ j k, j < k → power j < power k ∨ power j = power k ∧ mantissa j < mantissa k := by
    intro j k h
    unfold power mantissa
    split <;> split <;> omega
  rcases Nat.lt_trichotomy m n with h | rfl | h
  · rw [Nat.compare_eq_lt.mpr h]
    rcases horder m n h with hp | ⟨hp, hm⟩
    · rw [Int.compare_eq_lt.mpr hp]; rfl
    · rw [hp, Int.compare_eq_eq.mpr rfl, Nat.compare_eq_lt.mpr hm]; rfl
  · simp
  · rw [Nat.compare_eq_gt.mpr h]
    rcases horder n m h with hp | ⟨hp, hm⟩
    · rw [Int.compare_eq_gt.mpr hp]; rfl
    · rw [hp, Int.compare_eq_eq.mpr rfl, Nat.compare_eq_gt.mpr hm]; rfl

theorem compare_signedOrdinal (negative : Bool) (m n : Nat) :
    compare (signedOrdinal negative m) (signedOrdinal negative n) =
      if negative then (compare m n).swap else compare m n := by
  rcases Nat.lt_trichotomy m n with h | rfl | h
  · rw [Nat.compare_eq_lt.mpr h]
    cases negative with
    | false => exact Int.compare_eq_lt.mpr (by simpa [signedOrdinal] using h)
    | true => exact Int.compare_eq_gt.mpr (by simpa [signedOrdinal] using h)
  · cases negative <;> simp
  · rw [Nat.compare_eq_gt.mpr h]
    cases negative with
    | false => exact Int.compare_eq_gt.mpr (by simpa [signedOrdinal] using h)
    | true => exact Int.compare_eq_lt.mpr (by simpa [signedOrdinal] using h)

/-- Two finite doubles compare as their ordinals with their signs. -/
theorem compare_finiteParts (a b : Bool) (m n : Nat) :
    (finiteParts a m).compare (finiteParts b n) =
      some (compare (signedOrdinal a m) (signedOrdinal b n)) := by
  have hlt : ∀ i j : Int, i < j → some Ordering.lt = some (compare i j) :=
    fun i j h => by rw [Int.compare_eq_lt.mpr h]
  have hgt : ∀ i j : Int, j < i → some Ordering.gt = some (compare i j) :=
    fun i j h => by rw [Int.compare_eq_gt.mpr h]
  unfold finiteParts
  by_cases hm : m = 0
  · by_cases hn : n = 0
    · rw [dif_pos hm, dif_pos hn, hm, hn]
      cases a <;> cases b <;> rfl
    · rw [dif_pos hm, dif_neg hn, hm]
      cases b with
      | false => exact hlt _ _ (by simp [signedOrdinal]; omega)
      | true => exact hgt _ _ (by simp [signedOrdinal]; omega)
  · by_cases hn : n = 0
    · rw [dif_neg hm, dif_pos hn, hn]
      cases a with
      | false => exact hgt _ _ (by simp [signedOrdinal]; omega)
      | true => exact hlt _ _ (by simp [signedOrdinal]; omega)
    · rw [dif_neg hm, dif_neg hn]
      have hsizes := compare_power_mantissa m n
      cases a with
      | false =>
        cases b with
        | false => rw [compare_signedOrdinal]; exact congrArg some hsizes
        | true => exact hgt _ _ (by simp [signedOrdinal]; omega)
      | true =>
        cases b with
        | false => exact hlt _ _ (by simp [signedOrdinal]; omega)
        | true => rw [compare_signedOrdinal]; exact congrArg (some ·.swap) hsizes

/-- The value of a double by its ordinal with its sign. -/
def ofSigned (i : Int) : ℚ := if i < 0 then -size i.natAbs else size i.natAbs

theorem strictMono_ofSigned : StrictMono ofSigned := by
  intro i j h
  unfold ofSigned
  by_cases hi : i < 0
  · by_cases hj : j < 0
    · rw [if_pos hi, if_pos hj, neg_lt_neg_iff, size_lt_size]
      omega
    · rw [if_pos hi, if_neg hj]
      have hsize := size_pos (n := i.natAbs) (by omega)
      exact lt_of_lt_of_le (neg_neg_of_pos hsize) (size_nonneg _)
  · rw [if_neg hi, if_neg (by omega), size_lt_size]
    omega

theorem value_eq_ofSigned (x : Float) :
    value x = ofSigned (signedOrdinal (isNegative x) (ordinal x)) := by
  unfold value ofSigned signedOrdinal
  cases isNegative x with
  | false => simp
  | true =>
    by_cases hzero : ordinal x = 0
    · simp [hzero, size_zero]
    · have : 0 < ordinal x := by omega
      simp [this]

section

variable {x y : Float}

theorem compare_toModel (hx : x.isFinite = true) (hy : y.isFinite = true) :
    x.toModel.unpack.compare y.toModel.unpack =
      some (compare (signedOrdinal (isNegative x) (ordinal x))
        (signedOrdinal (isNegative y) (ordinal y))) := by
  rw [unpack_toModel hx, unpack_toModel hy, compare_finiteParts]

theorem le_iff_value_le (hx : x.isFinite = true) (hy : y.isFinite = true) :
    x ≤ y ↔ value x ≤ value y := by
  have hle : x ≤ y ↔ (x.toModel.unpack.compare y.toModel.unpack).any (·.isLE) = true :=
    decide_eq_true_iff
  rw [hle, compare_toModel hx hy, value_eq_ofSigned, value_eq_ofSigned,
    strictMono_ofSigned.le_iff_le, Option.any_some, Int.isLE_compare]

theorem lt_iff_value_lt (hx : x.isFinite = true) (hy : y.isFinite = true) :
    x < y ↔ value x < value y := by
  have hlt : x < y ↔ (x.toModel.unpack.compare y.toModel.unpack == some .lt) = true :=
    decide_eq_true_iff
  rw [hlt, compare_toModel hx hy, value_eq_ofSigned, value_eq_ofSigned,
    strictMono_ofSigned.lt_iff_lt]
  simp [Int.compare_eq_lt]

theorem beq_iff_value_eq (hx : x.isFinite = true) (hy : y.isFinite = true) :
    (x == y) = true ↔ value x = value y := by
  have hbeq : (x == y) = (x.toModel.unpack.compare y.toModel.unpack == some .eq) := rfl
  rw [hbeq, compare_toModel hx hy, value_eq_ofSigned, value_eq_ofSigned,
    strictMono_ofSigned.injective.eq_iff]
  simp

/-! ## Zero, and the other sign -/

theorem beq_zero_iff (hx : x.isFinite = true) : (x == 0) = true ↔ ordinal x = 0 := by
  have hfinite : (0 : Float).isFinite = true := by decide
  have hzero : signedOrdinal (isNegative 0) (ordinal 0) = 0 := by decide
  rw [beq_iff_value_eq hx hfinite, value_eq_ofSigned, value_eq_ofSigned,
    strictMono_ofSigned.injective.eq_iff, hzero, signedOrdinal]
  split <;> omega

theorem lt_zero_iff (hx : x.isFinite = true) :
    x < 0 ↔ isNegative x = true ∧ ordinal x ≠ 0 := by
  have hfinite : (0 : Float).isFinite = true := by decide
  have hzero : signedOrdinal (isNegative 0) (ordinal 0) = 0 := by decide
  rw [lt_iff_value_lt hx hfinite, value_eq_ofSigned, value_eq_ofSigned,
    strictMono_ofSigned.lt_iff_lt, hzero, signedOrdinal]
  cases isNegative x with
  | false => simp
  | true => simp; omega

theorem value_eq_ite (hx : x.isFinite = true) :
    value x = if x < 0 then -size (ordinal x) else size (ordinal x) := by
  rw [value, if_congr (lt_zero_iff hx) rfl rfl]
  by_cases hzero : ordinal x = 0
  · simp [hzero, size_zero]
  · simp [hzero]

theorem abs_value (hx : x.isFinite = true) : |value x| = size (ordinal x) := by
  rw [value_eq_ite hx]
  split
  · rw [abs_neg, abs_of_nonneg (size_nonneg _)]
  · rw [abs_of_nonneg (size_nonneg _)]

theorem neg_eq_ofOrdinal (x : Float) : -x = ofOrdinal (!isNegative x) (ordinal x) := by
  have hsize : ordinal x < 2 ^ 63 := Nat.mod_lt _ (Nat.two_pow_pos 63)
  calc -x = -ofOrdinal (isNegative x) (ordinal x) := by rw [ofOrdinal_ordinal]
    _ = ofOrdinal (!isNegative x) (ordinal x) := by
      rw [ofOrdinal_eq_ofParts _ hsize, ofOrdinal_eq_ofParts _ hsize, neg_ofParts, neg_parts]
      cases isNegative x <;> rfl

end

end Double

end Calculator
