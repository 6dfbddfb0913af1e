-- The double nearest to an exact value, a fraction of whole numbers of units. Of
-- two equally near doubles the one with the even ordinal is taken, and what lies
-- nearer to the double after the largest one is infinite.
import Calculator.Double.Ordinal
import Calculator.Decimal

namespace Calculator

namespace Double

/-- The largest number below `low + 2 ^ bits` that `fits`, found bit by bit from the top. -/
def largestFrom (fits : Nat → Bool) : Nat → Nat → Nat
  | 0, low => low
  | bits + 1, low =>
    largestFrom fits bits (if fits (low + 2 ^ bits) then low + 2 ^ bits else low)

/-- The ordinal of the largest double that is not above `num / den` units. -/
def floorOrdinal (num den : Nat) : Nat :=
  largestFrom (fun n => units n * den ≤ num) 63 0

/-- The ordinal of the double nearest to `num / den` units. -/
def nearestOrdinal (num den : Nat) : Nat :=
  let low := floorOrdinal num den
  let middle := (units low + units (low + 1)) * den
  let nearest :=
    if 2 * num < middle then low
    else if middle < 2 * num then low + 1
    else if low % 2 = 0 then low
    else low + 1
  min nearest infinityOrdinal

end Double

namespace Decimal

/-- The ordinal of the double nearest to a decimal value. A value from `10 ^ 309` on is infinite,
and one below half a unit is zero; both are told from the exponent alone, so that no power of ten
is worked out that could not matter. -/
def ordinal (d : Decimal) : Nat :=
  if d.coefficient = 0 then 0
  else match d.exponent with
    | .ofNat e =>
      if 309 ≤ e then Double.infinityOrdinal
      else Double.nearestOrdinal (d.coefficient * 10 ^ e * 2 ^ 1074) 1
    | .negSucc e =>
      if d.coefficient.log2 + 1076 ≤ 3 * (e + 1) then 0
      else Double.nearestOrdinal (d.coefficient * 2 ^ 1074) (10 ^ (e + 1))

end Decimal

end Calculator
