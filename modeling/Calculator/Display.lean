-- The text of a result on the screen. From 10^-9 on and below 10^10 a value shows
-- its digits in their places, any other value but zero a power of ten. A value
-- that is no number, or not finite, shows as an error.
import Calculator.Decimal.Significant
import Calculator.Double.Text

namespace Calculator

namespace Display

/-- What the screen shows when there is no result. -/
def error : String := "Error"

/-- What the screen shows before the first result. -/
def initial : String := "0"

/-- The significant digits of a value shown with its digits in their places. -/
def positionalDigits : Nat := 12

/-- The significant digits of a value shown in scientific notation. -/
def scientificDigits : Nat := 10

/-- The ordinal of the first double shown with its digits in their places, the one nearest to
10^-9. -/
def positionalFrom : Nat := (⟨1, -9⟩ : Decimal).ordinal

/-- The ordinal of the first double that is too large for that, which is 10^10. -/
def positionalBelow : Nat := (⟨1, 10⟩ : Decimal).ordinal

/-- Does the double with ordinal `n` show its digits in their places? -/
def isPositional (n : Nat) : Bool :=
  positionalFrom ≤ n && n < positionalBelow

/-- The text of the finite double with ordinal `n`, which is not zero. The value rounded to twelve
digits is read as a double again before it is written. -/
def magnitude (n : Nat) : List Char :=
  let exact : Decimal := ⟨Double.atoms n, -1074⟩
  if isPositional n then Double.ordinalText (exact.significant positionalDigits).ordinal
  else (exact.significant scientificDigits).trim.scientific

end Display

/-- The text of a result. Zero has no sign. -/
def display (x : Float) : String :=
  if x.isFinite then
    let n := Double.ordinal x
    if n = 0 then "0"
    else String.ofList ((if Double.isNegative x then ['-'] else []) ++ Display.magnitude n)
  else Display.error

end Calculator
