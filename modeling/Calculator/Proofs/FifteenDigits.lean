-- A decimal of at most fifteen digits comes back from the double that it is read
-- as. The decimals that read as one double lie close together, so no two of them
-- end at the same place before the sixteenth digit. So the shortest one is found
-- at the last digit of the decimal, and it is the decimal itself.
import Mathlib
import Calculator.Proofs.NearestValue
import Calculator.Proofs.ShortestText

namespace Calculator

namespace Double

/-! ## The search for the coarsest grid -/

section

variable {r : Reach} {exact step : ℕ}

/-- There is no gap in a reach. -/
theorem holds_between {a b m : ℕ} (ha : r.holds a = true) (hb : r.holds b = true) (hlow : a ≤ m)
    (hhigh : m ≤ b) : r.holds m = true := by
  rw [holds_iff] at ha hb ⊢
  obtain ⟨halow, -, haclosed⟩ := ha
  obtain ⟨-, hbhigh, hbclosed⟩ := hb
  refine ⟨by omega, by omega, ?_⟩
  rintro (hend | hend)
  · exact haclosed (Or.inl (by omega))
  · exact hbclosed (Or.inr (by omega))

/-- A grid that has a point in the reach is not passed over. -/
theorem isSome_gridPoint? {c : ℕ} (hstep : 0 < step) (hexact : r.holds exact = true)
    (hc : r.holds (c * step) = true) : (gridPoint? r exact step).isSome = true := by
  have hbelow : exact / step * step ≤ exact := Nat.div_mul_le_self exact step
  have habove : exact ≤ (exact / step + 1) * step := by
    rw [Nat.add_mul, Nat.one_mul]
    exact (Nat.lt_div_mul_add hstep).le
  have hneighbour : r.holds (exact / step * step) = true ∨
      r.holds ((exact / step + 1) * step) = true := by
    rcases Nat.lt_or_ge (exact / step) c with hlt | hle
    · exact Or.inr (holds_between hexact hc habove (Nat.mul_le_mul_right step hlt))
    · exact Or.inl (holds_between hc hexact (Nat.mul_le_mul_right step hle) hbelow)
  unfold gridPoint?
  simp only
  split
  · split <;> rfl
  · rename_i hnot
    rw [if_pos (hneighbour.resolve_left hnot)]
    rfl

/-- The search ends at a point that is alone on its grid, unless a coarser grid has it too. -/
theorem coarsest_eq {c k start : ℕ} (hexact : r.holds exact = true)
    (hc : r.holds (c * 10 ^ k) = true) (hlast : c % 10 ≠ 0)
    (honly : ∀ b, r.holds (b * 10 ^ k) = true → b = c) (hstart : k ≤ start) :
    coarsest r exact start = ⟨c, (k : ℤ) - 1074⟩ := by
  induction start with
  | zero =>
    obtain rfl : k = 0 := by omega
    have hsame : exact = c := honly exact (by rwa [Nat.pow_zero, Nat.mul_one])
    rw [coarsest, hsame]
    rfl
  | succ start ih =>
    unfold coarsest
    rcases Nat.lt_or_eq_of_le hstart with hlt | rfl
    · -- A point of this grid would be the point itself, which has a last digit that is not zero.
      have hnone : gridPoint? r exact (10 ^ (start + 1)) = none := by
        cases hpoint : gridPoint? r exact (10 ^ (start + 1)) with
        | none => rfl
        | some b =>
          have hholds := gridPoint?_holds hpoint
          have hsplit : b * 10 ^ (start + 1) = 10 * (b * 10 ^ (start - k)) * 10 ^ k := by
            rw [show start + 1 = start - k + 1 + k by omega, Nat.pow_add, Nat.pow_succ]
            ring
          rw [hsplit] at hholds
          have hsame := honly _ hholds
          omega
      rw [hnone]
      exact ih (by omega)
    · obtain ⟨b, hb⟩ := Option.isSome_iff_exists.mp
        (isSome_gridPoint? (Nat.pow_pos (by decide)) hexact hc)
      have hsame := honly b (gridPoint?_holds hb)
      rw [hb]
      simp only [hsame]

end

/-! ## How close the decimals of one double are -/

section

variable {n a b : ℕ}

/-- The values that read as one double, from `2 ^ 52` units on, differ by one part in `2 ^ 51` at
most. -/
theorem close_of_holds (hn : 2 ^ 52 ≤ n) (ha : (reach n).holds a = true)
    (hb : (reach n).holds b = true) : 2 ^ 51 * b ≤ 2 ^ 51 * a + a := by
  obtain ⟨hlow, -, -⟩ := holds_iff.mp ha
  obtain ⟨-, hhigh, -⟩ := holds_iff.mp hb
  obtain ⟨m, rfl⟩ : ∃ m, n = m + 1 := ⟨n - 1, by omega⟩
  obtain ⟨gap, hgap⟩ : ∃ gap, gap = 2 ^ ((m + 1) / 2 ^ 52 - 1) := ⟨_, rfl⟩
  have hnext : units (m + 1 + 1) = units (m + 1) + gap := by rw [units_succ, ← hgap]
  have hbefore : units (m + 1) ≤ units m + gap := by
    rw [units_succ, hgap]
    exact Nat.add_le_add_left (Nat.pow_le_pow_right Nat.two_pos (by omega)) _
  have hlarge : 2 ^ 52 * gap ≤ units (m + 1) := by
    rw [hgap]
    exact step_le_units hn
  simp only [reach, atoms, Nat.add_sub_cancel] at hlow hhigh
  generalize 5 ^ 1074 = scale at hlow hhigh
  rw [hnext] at hhigh
  have hbefore := Nat.mul_le_mul_right scale hbefore
  have hlarge := Nat.mul_le_mul_right scale hlarge
  rw [Nat.mul_assoc] at hlarge
  rw [Nat.add_mul] at hhigh hbefore
  omega

/-- Of the values that read as one double, from `2 ^ 52` units on, no two end at the same place
after fifteen digits or less. -/
theorem eq_of_holds_of_lt {c k : ℕ} (hn : 2 ^ 52 ≤ n) (hdigits : c < 10 ^ 15)
    (hc : (reach n).holds (c * 10 ^ k) = true) (hb : (reach n).holds (b * 10 ^ k) = true) :
    b = c := by
  have hpower : 0 < 10 ^ k := Nat.pow_pos (by decide)
  have hup := close_of_holds hn hc hb
  have hdown := close_of_holds hn hb hc
  rw [← Nat.mul_assoc, ← Nat.mul_assoc, ← Nat.add_mul, Nat.mul_le_mul_right_iff hpower]
    at hup hdown
  omega

/-- No power of ten with a multiple in the reach is left out before the search begins. -/
theorem le_start_of_holds {c k : ℕ} (hc : c ≠ 0) (h : (reach n).holds (c * 10 ^ k) = true) :
    k ≤ (atoms (n + 1)).log2 / 3 + 1 := by
  obtain ⟨-, hhigh, -⟩ := holds_iff.mp h
  have hself := atoms_le_atoms (Nat.le_succ n)
  have hmultiple : 10 ^ k ≤ c * 10 ^ k := Nat.le_mul_of_pos_left _ (Nat.pos_of_ne_zero hc)
  have hpower : 0 < 10 ^ k := Nat.pow_pos (by decide)
  have hbits : 2 ^ (3 * k) ≤ 10 ^ k := by
    rw [Nat.pow_mul]
    exact Nat.pow_le_pow_left (by decide) k
  simp only [reach] at hhigh
  generalize atoms (n + 1) = top at *
  have hlog : 3 * k ≤ top.log2 := (Nat.le_log2 (by omega)).mpr (by omega)
  omega

end

/-- A decimal of at most fifteen digits is the shortest one of the double that it is read as, when
that double has all its bits. -/
theorem shortest_ordinal {d : Decimal} {k : ℕ} (hexponent : d.exponent = (k : ℤ) - 1074)
    (htrimmed : d.Trimmed) (hdigits : d.coefficient < 10 ^ 15) (hlarge : 2 ^ 52 ≤ d.ordinal)
    (hfinite : d.ordinal < infinityOrdinal) : shortest d.ordinal = d := by
  have hholds := d.holds_ordinal hexponent (by omega) hfinite
  have hnonzero : d.coefficient ≠ 0 := by
    unfold Decimal.Trimmed at htrimmed
    omega
  have hfound := coarsest_eq (holds_self d.ordinal) hholds htrimmed
    (fun b hb => eq_of_holds_of_lt hlarge hdigits hholds hb) (le_start_of_holds hnonzero hholds)
  rw [shortest, hfound, ← hexponent]

end Double

namespace Decimal

open Double

variable {d : Decimal} {k : ℕ}

theorem ordinal_trim (hexponent : d.exponent = (k : ℤ) - 1074) (hpos : 0 < d.ordinal)
    (hfinite : d.ordinal < infinityOrdinal) : d.trim.ordinal = d.ordinal := by
  have hholds := d.holds_ordinal hexponent hpos hfinite
  obtain ⟨z, hcoefficient, hexponent'⟩ := d.exists_trim_eq
  rw [hcoefficient, Nat.mul_assoc, ← Nat.pow_add] at hholds
  exact ordinal_eq hpos hfinite (by rw [hexponent', hexponent]; omega) hholds

/-- Read as a double and written again, such a decimal shows its own digits. -/
theorem ordinalText_ordinal (hexponent : d.exponent = (k : ℤ) - 1074) (hnonzero : d.coefficient ≠ 0)
    (hdigits : d.coefficient < 10 ^ 15) (hlarge : 2 ^ 52 ≤ d.ordinal)
    (hfinite : d.ordinal < infinityOrdinal) : ordinalText d.ordinal = d.trim.positional := by
  have hsame := ordinal_trim hexponent (by omega) hfinite
  obtain ⟨z, hcoefficient, hexponent'⟩ := d.exists_trim_eq
  have hfewer : d.trim.coefficient ≤ d.coefficient := by
    rw [hcoefficient]
    exact Nat.le_mul_of_pos_right _ (Nat.pow_pos (by decide))
  rw [← hsame] at hlarge hfinite ⊢
  have hshortest := shortest_ordinal (d := d.trim) (k := z + k)
    (by rw [hexponent', hexponent]; push_cast; ring) (trimmed_trim hnonzero)
    (by omega) hlarge hfinite
  rw [ordinalText, if_neg (by omega), hshortest]

end Decimal

end Calculator
