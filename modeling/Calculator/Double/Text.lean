-- Doubles as text, both ways. A double is written with the fewest digits that read
-- back, never with an exponent. What is read is a numeral, with a sign or without,
-- or a word for infinity or for no number.
import Calculator.Double.Shortest
import Calculator.Decimal.Written
import Calculator.Double.Nearest
import Calculator.Numeral

namespace Calculator

namespace Double

/-! ## Writing -/

/-- The text of a finite absolute value. -/
def ordinalText (n : Nat) : List Char :=
  if n = 0 then ['0'] else (shortest n).positional

/-- The text of a double. -/
def text (x : Float) : String :=
  if x.isNaN then "NaN"
  else
    let sign := if isNegative x then ['-'] else []
    let size := if x.isInf then ['i', 'n', 'f'] else ordinalText (ordinal x)
    String.ofList (sign ++ size)

/-! ## Reading -/

/-- The double that stands for no number. -/
def notANumber : Float := Float.ofBits 0x7FF8000000000000

/-- The double that a text stands for, if it stands for one. A numeral is rounded to the nearest
double. The case of the words does not matter. -/
def ofText? (text : String) : Option Float :=
  let (sign, unsigned) := Numeral.scanSign text.toList
  let negative := sign = some '-'
  let word := unsigned.map Char.toLower
  if word = ['n', 'a', 'n'] then some notANumber
  else if word = ['i', 'n', 'f'] ∨ word = ['i', 'n', 'f', 'i', 'n', 'i', 't', 'y'] then
    some (ofOrdinal negative infinityOrdinal)
  else
    match Numeral.scan unsigned with
    | some (numeral, []) => some (ofOrdinal negative numeral.decimal.ordinal)
    | _ => none

end Double

end Calculator
