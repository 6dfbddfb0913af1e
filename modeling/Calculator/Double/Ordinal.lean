-- Doubles as whole numbers. The doubles that are not negative are numbered in
-- order: their ordinals, which are also their bits. Each one is a whole number of
-- units of 2^-1074, so exact questions about doubles are about natural numbers.
import Calculator.Decimal

namespace Calculator

namespace Double

/-! ## Ordinals and units -/

/-- The ordinal just above the largest double. It is the ordinal of infinity. -/
def infinityOrdinal : Nat := 2047 * 2 ^ 52

/-- How many units the double with ordinal `n` is worth. The first `2 ^ 53` steps are one unit
each, and the steps double in size after every `2 ^ 52` further ones. -/
def units (n : Nat) : Nat :=
  if n < 2 ^ 52 then n else (2 ^ 52 + n % 2 ^ 52) * 2 ^ (n / 2 ^ 52 - 1)

@[simp] theorem units_zero : units 0 = 0 := rfl

theorem units_succ (n : Nat) : units (n + 1) = units n + 2 ^ (n / 2 ^ 52 - 1) := by
  by_cases hsmall : n + 1 < 2 ^ 52
  · have hn : n < 2 ^ 52 := by omega
    have hdiv : n / 2 ^ 52 - 1 = 0 := by omega
    simp only [units, hsmall, hn, if_true, hdiv, Nat.pow_zero]
  · by_cases hedge : n + 1 = 2 ^ 52
    · have hn : n = 2 ^ 52 - 1 := by omega
      subst hn
      decide
    · have hn : ¬ n < 2 ^ 52 := by omega
      simp only [units, hsmall, hn, if_false]
      by_cases hturn : n % 2 ^ 52 = 2 ^ 52 - 1
      · have hmod : (n + 1) % 2 ^ 52 = 0 := by omega
        obtain ⟨b, hb⟩ : ∃ b, n / 2 ^ 52 = b + 1 := ⟨n / 2 ^ 52 - 1, by omega⟩
        have hnext : (n + 1) / 2 ^ 52 = b + 2 := by omega
        rw [hmod, hturn, hb, hnext]
        simp only [Nat.add_sub_cancel, Nat.add_zero, show b + 2 - 1 = b + 1 from rfl, Nat.pow_succ]
        omega
      · have hmod : (n + 1) % 2 ^ 52 = n % 2 ^ 52 + 1 := by omega
        have hdiv : (n + 1) / 2 ^ 52 = n / 2 ^ 52 := by omega
        rw [hmod, hdiv, ← Nat.add_assoc, Nat.add_mul, Nat.one_mul]

theorem units_lt_succ (n : Nat) : units n < units (n + 1) := by
  rw [units_succ]
  have := Nat.two_pow_pos (n / 2 ^ 52 - 1)
  omega

theorem units_lt_units {m n : Nat} (h : m < n) : units m < units n := by
  induction h with
  | refl => exact units_lt_succ m
  | step _ ih => exact Nat.lt_trans ih (units_lt_succ _)

/-! ## Ordinals and floats -/

/-- The ordinal of the absolute value of a double. -/
def ordinal (x : Float) : Nat :=
  x.toBits.toNat % 2 ^ 63

/-- Is the sign bit set? -/
def isNegative (x : Float) : Bool :=
  2 ^ 63 ≤ x.toBits.toNat

/-- The double with the given sign and ordinal. -/
def ofOrdinal (negative : Bool) (n : Nat) : Float :=
  Float.ofBits (UInt64.ofNat (if negative then 2 ^ 63 + n else n))

end Double

end Calculator
