-- The two ways to write a decimal: all digits in their places, or one digit
-- before the point and an exponent.
import Calculator.Decimal

namespace Calculator

namespace Decimal

/-- The digits of a number, the first one first. Zero is one digit. -/
def digits (n : Nat) : List Char :=
  Nat.toDigits 10 n

/-- All digits in their places, with zeros where the coefficient has none. There is a point only
when there are digits after it. -/
def positional (d : Decimal) : List Char :=
  let ds := digits d.coefficient
  match d.exponent with
  | .ofNat e => ds ++ List.replicate e '0'
  | .negSucc e =>
    let places := e + 1
    if places < ds.length then
      ds.take (ds.length - places) ++ '.' :: ds.drop (ds.length - places)
    else '0' :: '.' :: (List.replicate (places - ds.length) '0' ++ ds)

/-- One digit, the others after a point if there are any, and the exponent with its sign. -/
def scientific (d : Decimal) : List Char :=
  let ds := digits d.coefficient
  let exponent := d.exponent + (ds.length - 1 : Nat)
  let sign := if exponent < 0 then '-' else '+'
  let tail := if ds.length = 1 then [] else '.' :: ds.drop 1
  ds.take 1 ++ tail ++ 'e' :: sign :: digits exponent.natAbs

end Decimal

end Calculator
