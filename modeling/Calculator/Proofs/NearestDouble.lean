-- Everything in the reach of a double reads as that double: the bit by bit
-- search finds the double just below a value, and of it and the next one the
-- nearer is taken.
import Calculator.Decimal
import Calculator.Double.Nearest
import Calculator.Double.Shortest

namespace Calculator

namespace Double

/-! ## The search from the top bit down -/

/-- The search keeps a number that fits and stays below one that does not. -/
theorem largestFrom_spec (fits : Nat → Bool) (bits low : Nat) (hlow : fits low = true)
    (hhigh : fits (low + 2 ^ bits) = false) :
    fits (largestFrom fits bits low) = true ∧ fits (largestFrom fits bits low + 1) = false := by
  induction bits generalizing low with
  | zero => exact ⟨hlow, hhigh⟩
  | succ bits ih =>
    have hdouble : low + 2 ^ (bits + 1) = low + 2 ^ bits + 2 ^ bits := by
      rw [Nat.pow_succ]
      omega
    unfold largestFrom
    split
    · rename_i hfits
      exact ih _ hfits (by rwa [hdouble] at hhigh)
    · rename_i hfits
      exact ih _ hlow (by simpa using hfits)

theorem units_le_units {m n : Nat} (h : m ≤ n) : units m ≤ units n := by
  rcases Nat.lt_or_eq_of_le h with h | rfl
  · exact Nat.le_of_lt (units_lt_units h)
  · exact Nat.le_refl _

theorem units_pos {n : Nat} (h : 0 < n) : 0 < units n :=
  Nat.lt_of_le_of_lt (Nat.zero_le _) (units_lt_units h)

section

variable {num den n : Nat}

theorem lt_of_units {m : Nat} (hm : units m * den ≤ num) (hn : num < units n * den) : m < n := by
  refine Nat.lt_of_not_le fun hle => ?_
  have hfar : units n * den ≤ units m * den := Nat.mul_le_mul_right den (units_le_units hle)
  omega

/-- The search finds the one ordinal whose double is not above the value while the next one is. -/
theorem floorOrdinal_eq (hn : n < 2 ^ 63) (hbelow : units n * den ≤ num)
    (habove : num < units (n + 1) * den) : floorOrdinal num den = n := by
  have hfirst : units 0 * den ≤ num := by simp
  have hlast : num < units (0 + 2 ^ 63) * den :=
    Nat.lt_of_lt_of_le habove (Nat.mul_le_mul_right den (units_le_units (by omega)))
  have hspec := largestFrom_spec (fun k => units k * den ≤ num) 63 0
    (decide_eq_true hfirst) (decide_eq_false (Nat.not_le.mpr hlast))
  obtain ⟨hfits, hnext⟩ := hspec
  have hle := lt_of_units (of_decide_eq_true hfits) habove
  have hge := lt_of_units hbelow (Nat.not_le.mp (of_decide_eq_false hnext))
  unfold floorOrdinal
  omega

/-! ## What lies in the reach is nearest -/

/-- A value between the two half-way points around the double with ordinal `n`. A half-way point
counts when `n` is even. -/
structure Near (n num den : Nat) : Prop where
  low : (units (n - 1) + units n) * den ≤ 2 * num
  high : 2 * num ≤ (units n + units (n + 1)) * den
  even_of_low : (units (n - 1) + units n) * den = 2 * num → n % 2 = 0
  even_of_high : 2 * num = (units n + units (n + 1)) * den → n % 2 = 0

theorem nearestOrdinal_eq (hn : n < infinityOrdinal) (hden : 0 < den) (h : Near n num den) :
    nearestOrdinal num den = n := by
  have hsize : n < 2 ^ 63 := Nat.lt_trans hn (by decide)
  have hnext : units n * den < units (n + 1) * den :=
    Nat.mul_lt_mul_of_pos_right (units_lt_succ n) hden
  obtain ⟨hlow, hhigh, hevenLow, hevenHigh⟩ := h
  rw [Nat.add_mul] at hlow hhigh hevenLow hevenHigh
  by_cases hbelow : units n * den ≤ num
  · -- The value is not below the double, so the search stops at the double itself.
    have hfloor : floorOrdinal num den = n := floorOrdinal_eq hsize hbelow (by omega)
    unfold nearestOrdinal
    simp only [hfloor, Nat.add_mul]
    split
    · omega
    · split
      · omega
      · split <;> omega
  · -- The value is below the double, so the search stops one step before it.
    obtain ⟨m, rfl⟩ : ∃ m, n = m + 1 := by
      cases n with
      | zero => simp at hbelow
      | succ m => exact ⟨m, rfl⟩
    have hprevious : units m * den < units (m + 1) * den :=
      Nat.mul_lt_mul_of_pos_right (units_lt_succ m) hden
    rw [Nat.add_sub_cancel] at hlow hevenLow
    have hfloor : floorOrdinal num den = m := floorOrdinal_eq (by omega) (by omega) (by omega)
    unfold nearestOrdinal
    simp only [hfloor, Nat.add_mul]
    split
    · omega
    · split
      · omega
      · split <;> omega

end

/-! ## From the reach to the decimal -/

section

variable {n a : Nat}

theorem holds_iff {r : Reach} : r.holds a = true ↔
    r.low ≤ 2 * a ∧ 2 * a ≤ r.high ∧ ((r.low = 2 * a ∨ 2 * a = r.high) → r.closed = true) := by
  unfold Reach.holds
  cases r.closed with
  | true => simp
  | false =>
    simp only [Bool.false_eq_true, if_false, Bool.and_eq_true, decide_eq_true_eq, imp_false]
    omega

theorem five_pow_pos (k : Nat) : 0 < 5 ^ k := Nat.pow_pos (by decide)

/-- A fraction of units that is as much as some atoms is near a double exactly when the atoms lie in
its reach. -/
theorem near_iff_holds {num den : Nat} (hden : 0 < den) (hvalue : num * 5 ^ 1074 = a * den) :
    Near n num den ↔ (reach n).holds a = true := by
  have hscale := five_pow_pos 1074
  simp only [holds_iff, reach, atoms]
  generalize 5 ^ 1074 = scale at hvalue hscale ⊢
  have htwice : 2 * a * den = 2 * num * scale := by
    rw [Nat.mul_assoc, ← hvalue, Nat.mul_assoc]
  have hle : ∀ u, u * scale ≤ 2 * a ↔ u * den ≤ 2 * num := by
    intro u
    rw [← Nat.mul_le_mul_right_iff hden, htwice, Nat.mul_right_comm,
      Nat.mul_le_mul_right_iff hscale]
  have hge : ∀ u, 2 * a ≤ u * scale ↔ 2 * num ≤ u * den := by
    intro u
    rw [← Nat.mul_le_mul_right_iff hden, htwice, Nat.mul_right_comm u,
      Nat.mul_le_mul_right_iff hscale]
  have hends : ∀ u, u * scale = 2 * a ↔ u * den = 2 * num := by
    intro u
    rw [Nat.eq_iff_le_and_ge, Nat.eq_iff_le_and_ge, hle, hge]
  rw [← Nat.add_mul, ← Nat.add_mul, hle, hge, hends, eq_comm (a := 2 * a), hends,
    decide_eq_true_iff]
  constructor
  · rintro ⟨hlow, hhigh, hevenLow, hevenHigh⟩
    exact ⟨hlow, hhigh, fun hend => hend.elim hevenLow fun h => hevenHigh h.symm⟩
  · rintro ⟨hlow, hhigh, hclosed⟩
    exact ⟨hlow, hhigh, fun h => hclosed (Or.inl h), fun h => hclosed (Or.inr h.symm)⟩

theorem low_pos (hn : 0 < n) : 0 < (reach n).low := by
  have hatoms : 0 < atoms n := Nat.mul_pos (units_pos hn) (five_pow_pos 1074)
  simp only [reach]
  omega

theorem atoms_le_atoms {m n : Nat} (h : m ≤ n) : atoms m ≤ atoms n :=
  Nat.mul_le_mul_right _ (units_le_units h)

theorem atoms_infinityOrdinal : atoms infinityOrdinal = 2 ^ 1024 * 10 ^ 1074 := by
  have hunits : units infinityOrdinal = 2 ^ (1024 + 1074) := by
    have hmod : infinityOrdinal % 2 ^ 52 = 0 := by decide
    have hdiv : infinityOrdinal / 2 ^ 52 - 1 = 2046 := by decide
    have hlarge : ¬ infinityOrdinal < 2 ^ 52 := by decide
    have hsum : 52 + 2046 = 1024 + 1074 := rfl
    rw [units, if_neg hlarge, hmod, hdiv, Nat.add_zero, ← Nat.pow_add, hsum]
  rw [atoms, hunits, Nat.pow_add, Nat.mul_assoc, ← Nat.mul_pow]

theorem lt_of_holds (hn : n < infinityOrdinal) (ha : (reach n).holds a = true) :
    a < 10 ^ 309 * 10 ^ 1074 := by
  obtain ⟨-, hhigh, -⟩ := holds_iff.mp ha
  have hself := atoms_le_atoms (Nat.le_of_lt hn)
  have hnext := atoms_le_atoms (show n + 1 ≤ infinityOrdinal from hn)
  have hpowers : 2 ^ 1024 * 10 ^ 1074 < 10 ^ 309 * 10 ^ 1074 :=
    Nat.mul_lt_mul_of_pos_right (by decide +kernel) (Nat.pow_pos (by decide))
  rw [atoms_infinityOrdinal] at hself hnext
  have hbound : a ≤ 2 ^ 1024 * 10 ^ 1074 := by
    simp only [reach] at hhigh
    generalize 2 ^ 1024 * 10 ^ 1074 = top at hself hnext ⊢
    omega
  exact Nat.lt_of_le_of_lt hbound hpowers

theorem exponent_lt_of_holds {c e : Nat} (hn : n < infinityOrdinal) (hc : c ≠ 0)
    (ha : (reach n).holds (c * 10 ^ (e + 1074)) = true) : e < 309 := by
  refine Nat.lt_of_not_le fun hlarge => ?_
  have hpow : 10 ^ 309 * 10 ^ 1074 ≤ c * 10 ^ (e + 1074) := by
    rw [Nat.pow_add, ← Nat.mul_assoc]
    exact Nat.mul_le_mul_right _ (Nat.le_trans (Nat.pow_le_pow_right (by decide) hlarge)
      (Nat.le_mul_of_pos_left _ (Nat.pos_of_ne_zero hc)))
  exact Nat.lt_irrefl _ (Nat.lt_of_lt_of_le (lt_of_holds hn ha) hpow)

/-- A fraction near a double other than zero is not too small, as the sizes in bits tell. -/
theorem lt_log2_of_near {c k : Nat} (hpos : 0 < n) (h : Near n (c * 2 ^ 1074) (10 ^ k)) :
    3 * k < c.log2 + 1076 := by
  refine Nat.lt_of_not_le fun hle => ?_
  have hunits := units_pos hpos
  have hhalf : 10 ^ k ≤ 2 * (c * 2 ^ 1074) :=
    Nat.le_trans (Nat.le_mul_of_pos_left _ (by omega)) h.low
  have hpow : 2 ^ (c.log2 + 1076) ≤ 10 ^ k := by
    calc 2 ^ (c.log2 + 1076) ≤ 2 ^ (3 * k) := Nat.pow_le_pow_right (by decide) hle
      _ = 8 ^ k := by rw [Nat.pow_mul]
      _ ≤ 10 ^ k := Nat.pow_le_pow_left (by decide) _
  have hsplit : 2 ^ (c.log2 + 1076) = 2 * (2 ^ (c.log2 + 1) * 2 ^ 1074) := by
    rw [← Nat.pow_add, ← Nat.pow_succ']
  have hlt : c * 2 ^ 1074 < 2 ^ (c.log2 + 1) * 2 ^ 1074 :=
    Nat.mul_lt_mul_of_pos_right Nat.lt_log2_self (Nat.two_pow_pos _)
  omega

end

end Double

namespace Decimal

open Double

/-- A decimal in the reach of a finite double other than zero reads as that double. -/
theorem ordinal_eq {d : Decimal} {n j : Nat} (hpos : 0 < n) (hfinite : n < infinityOrdinal)
    (hexponent : d.exponent = (j : Int) - 1074)
    (ha : (reach n).holds (d.coefficient * 10 ^ j) = true) : d.ordinal = n := by
  obtain ⟨c, x⟩ := d
  simp only at hexponent ha
  have hlow := low_pos hpos
  have hc : c ≠ 0 := by
    rintro rfl
    have hzero := (holds_iff.mp ha).1
    rw [Nat.zero_mul] at hzero
    omega
  unfold ordinal
  rw [if_neg hc]
  cases x with
  | ofNat e =>
    have hj : j = e + 1074 := by
      rw [Int.ofNat_eq_natCast] at hexponent
      omega
    rw [hj] at ha
    have he : ¬ 309 ≤ e := Nat.not_le.mpr (exponent_lt_of_holds hfinite hc ha)
    simp only [if_neg he]
    refine nearestOrdinal_eq hfinite Nat.one_pos ((near_iff_holds Nat.one_pos ?_).mpr ha)
    rw [Nat.pow_add, Nat.mul_one, Nat.mul_assoc, ← Nat.mul_pow, Nat.mul_assoc]
  | negSucc e =>
    have hj : j + (e + 1) = 1074 := by omega
    have hden : 0 < 10 ^ (e + 1) := Nat.pow_pos (by decide)
    have hnear : Near n (c * 2 ^ 1074) (10 ^ (e + 1)) := by
      refine (near_iff_holds hden ?_).mpr ha
      rw [Nat.mul_assoc, ← Nat.mul_pow, Nat.mul_assoc, ← Nat.pow_add, hj]
    have hsmall : ¬ c.log2 + 1076 ≤ 3 * (e + 1) := Nat.not_le.mpr (lt_log2_of_near hpos hnear)
    simp only [if_neg hsmall]
    exact nearestOrdinal_eq hfinite hden hnear

end Decimal

end Calculator
