-- The functions that can be called by name, and the names they answer to.
import Calculator.AngleMode

namespace Calculator

/-- A function of one operand. -/
inductive NamedFunction where
  | sine
  | cosine
  | tangent
  | arcSine
  | arcCosine
  | arcTangent
  /-- The logarithm to the base e. -/
  | naturalLog
  /-- The logarithm to the base 10. -/
  | commonLog
  | squareRoot
  /-- Ten to the power of the operand. -/
  | powerOfTen
  /-- The base e to the power of the operand. -/
  | exponential
  | absolute
deriving DecidableEq, Repr

namespace NamedFunction

/-- The names of the functions, in lower case. Some functions have several. -/
def spellings : List (String × NamedFunction) :=
  [("sin", sine), ("cos", cosine), ("tan", tangent),
    ("asin", arcSine), ("acos", arcCosine), ("atan", arcTangent),
    ("ln", naturalLog), ("log", commonLog), ("sqrt", squareRoot),
    ("10^", powerOfTen), ("10^(", powerOfTen), ("10^x", powerOfTen), ("pow10", powerOfTen),
    ("e^", exponential), ("e^(", exponential), ("abs", absolute)]

/-- The characters of a name with ASCII capitals made small. -/
def folded (name : String) : List Char :=
  name.toList.map Char.toLower

/-- The function that a name stands for, if any. The case of ASCII letters does not matter. -/
def ofName? (name : String) : Option NamedFunction :=
  (spellings.find? fun spelling => spelling.1.toList = folded name).map Prod.snd

/-- The value of a function. An angle is in the unit of `mode`. -/
def apply (f : NamedFunction) (mode : AngleMode) (a : Float) : Float :=
  match f with
  | sine => (mode.toRadians a).sin
  | cosine => (mode.toRadians a).cos
  | tangent => (mode.toRadians a).tan
  | arcSine => mode.ofRadians a.asin
  | arcCosine => mode.ofRadians a.acos
  | arcTangent => mode.ofRadians a.atan
  | naturalLog => a.log
  | commonLog => a.log10
  | squareRoot => a.sqrt
  | powerOfTen => Float.pow 10 a
  | exponential => a.exp
  | absolute => a.abs

end NamedFunction

end Calculator
