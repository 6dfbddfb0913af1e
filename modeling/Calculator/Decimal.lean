-- Decimal values: a whole coefficient times a power of ten. Numerals are read
-- into them, and results are written from them.

namespace Calculator

-- Powers of natural numbers are those of the core library, also where the
-- algebra of Mathlib is in scope.
attribute [scoped instance (high)] instPowNat
attribute [default_instance (high + 1)] instPowNat

/-- The value `coefficient * 10 ^ exponent`. -/
structure Decimal where
  coefficient : Nat
  exponent : Int
deriving DecidableEq, Repr

namespace Decimal

/-- How many decimal digits a number has. Zero has one. -/
def digitCount (n : Nat) : Nat :=
  if n < 10 then 1 else digitCount (n / 10) + 1

/-- The same value with no zero at the end of the coefficient. Zero stays as it is. -/
def trim (d : Decimal) : Decimal :=
  if d.coefficient = 0 then d
  else if d.coefficient % 10 = 0 then trim ⟨d.coefficient / 10, d.exponent + 1⟩
  else d
termination_by d.coefficient
decreasing_by omega

end Decimal

end Calculator
