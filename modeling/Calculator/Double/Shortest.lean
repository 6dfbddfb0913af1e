-- The shortest decimal that reads back as a given double: a point between two
-- half-way points on the coarsest grid that has one, the nearer of two, and of two
-- equally near ones the larger. Everything is counted in atoms of 10^-1074.
import Calculator.Decimal
import Calculator.Double.Ordinal

namespace Calculator

namespace Double

/-- How many atoms the double with ordinal `n` is worth: an atom is `10 ^ (-1074)`. -/
def atoms (n : Nat) : Nat :=
  units n * 5 ^ 1074

/-- The decimals that read back as one double, in half atoms. -/
structure Reach where
  /-- The half-way point to the double below. -/
  low : Nat
  /-- The half-way point to the double above. -/
  high : Nat
  /-- Do the half-way points belong to the reach? -/
  closed : Bool
deriving DecidableEq, Repr

/-- The reach of the double with ordinal `n`. -/
def reach (n : Nat) : Reach :=
  ⟨atoms (n - 1) + atoms n, atoms n + atoms (n + 1), n % 2 = 0⟩

/-- Does a number of atoms lie in the reach? -/
def Reach.holds (r : Reach) (a : Nat) : Bool :=
  if r.closed then r.low ≤ 2 * a && 2 * a ≤ r.high else r.low < 2 * a && 2 * a < r.high

/-- The point of the grid of multiples of `step` that lies in the reach and is nearest to `exact`.
Only the two neighbours of `exact` on the grid can be that point. -/
def gridPoint? (r : Reach) (exact step : Nat) : Option Nat :=
  let below := exact / step
  if r.holds (below * step) then
    if r.holds ((below + 1) * step) && (2 * below + 1) * step ≤ 2 * exact then some (below + 1)
    else some below
  else if r.holds ((below + 1) * step) then some (below + 1)
  else none

/-- The point of the coarsest grid, from `10 ^ k` atoms down, that has a point in the reach. -/
def coarsest (r : Reach) (exact : Nat) : Nat → Decimal
  | 0 => ⟨exact, -1074⟩
  | k + 1 =>
    match gridPoint? r exact (10 ^ (k + 1)) with
    | some c => ⟨c, (k + 1 : Nat) - 1074⟩
    | none => coarsest r exact k

/-- The shortest decimal that reads back as the double with ordinal `n`. A grid coarser than the
first one tried has no point but zero below the half-way point above. -/
def shortest (n : Nat) : Decimal :=
  coarsest (reach n) (atoms n) ((atoms (n + 1)).log2 / 3 + 1)

end Double

end Calculator
