-- Rounding to a number of significant digits. The exact value is rounded, and a
-- value half-way between two candidates goes to the one whose last digit is even.
import Calculator.Decimal

namespace Calculator

namespace Decimal

/-- The whole number nearest to `num / den`. Half-way, it is the even one. -/
def divideToEven (num den : Nat) : Nat :=
  let low := num / den
  let twice := 2 * (num % den)
  if twice < den then low
  else if den < twice then low + 1
  else if low % 2 = 0 then low
  else low + 1

/-- The value of a decimal rounded to `digits` significant digits. A coefficient that has no more
digits than that stays as it is. -/
def significant (digits : Nat) (d : Decimal) : Decimal :=
  let dropped := digitCount d.coefficient - digits
  ⟨divideToEven d.coefficient (10 ^ dropped), d.exponent + dropped⟩

end Decimal

end Calculator
