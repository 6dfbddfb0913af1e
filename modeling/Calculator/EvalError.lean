-- Why an expression has no value.
import Calculator.Text.Quoted

namespace Calculator

/-- Why an expression has no value. -/
inductive EvalError where
  /-- The text of a number is no number. -/
  | invalidNumber (text : String)
  /-- The sign is the sign of no operator. -/
  | unknownOperator (sign : Char)
  /-- The name is the name of no function. -/
  | unknownFunction (name : String)
  /-- An operand is missing, or one is left over. -/
  | malformed
  /-- The value is infinite or no number. -/
  | notFinite
deriving DecidableEq, Repr

/-- The text of an error. -/
def EvalError.message : EvalError → String
  | invalidNumber text => "nombre invalide: " ++ Quoted.string text
  | unknownOperator sign => "opérateur inconnu: " ++ Quoted.char sign
  | unknownFunction name => "fonction inconnue: " ++ Quoted.string name
  | malformed => "expression mal formée"
  | notFinite => "résultat non fini"

end Calculator
