-- Quoted text, as error messages show it: between quotes, with an escape for
-- the quote itself, for the backslash, for four control characters, and for
-- every character that would not show.
import Calculator.Text.Unprintable

namespace Calculator

namespace Quoted

/-- The sign that stands on both sides of a quoted string. -/
def stringQuote : Char := '\x22'

/-- The sign that stands on both sides of a quoted character. -/
def charQuote : Char := '\x27'

/-- One character between quotes of the kind `quote`. -/
def escape (quote c : Char) : List Char :=
  if c = '\x00' then ['\\', '0']
  else if c = '\t' then ['\\', 't']
  else if c = '\n' then ['\\', 'n']
  else if c = '\r' then ['\\', 'r']
  else if c = '\\' then ['\\', '\\']
  else if c = quote then ['\\', quote]
  else if isUnprintable c then
    ['\\', 'u', '\x7b'] ++ Nat.toDigits 16 c.toNat ++ ['\x7d']
  else [c]

/-- A string in quotes. -/
def string (text : String) : String :=
  String.ofList (stringQuote :: (text.toList.flatMap (escape stringQuote) ++ [stringQuote]))

/-- A character in quotes. -/
def char (c : Char) : String :=
  String.ofList (charQuote :: (escape charQuote c ++ [charQuote]))

end Quoted

end Calculator
