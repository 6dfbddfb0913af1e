-- The tokens of an expression, as they are typed and in postfix order. Two kinds are
-- never typed: `valueOf` is a name that has found its place among the operands, and
-- `negate` is a minus sign that stands where an operand was due.

namespace Calculator

/-- One token of an expression, typed or in postfix order. -/
inductive Token where
  /-- A decimal number, as text. -/
  | number (text : String)
  /-- A name with an opening parenthesis right after it, or the bare root sign. -/
  | function (text : String)
  /-- Any other name, such as `Ans` or `PI`. -/
  | name (text : String)
  /-- A name that stands for its value in postfix order. -/
  | valueOf (text : String)
  /-- An opening parenthesis. -/
  | openParen
  /-- A closing parenthesis. -/
  | closeParen
  /-- An operator sign, or any character that starts no other token. -/
  | operator (sign : Char)
  /-- The percent sign, written after its operand. -/
  | percent
  /-- The minus sign in front of an operand. -/
  | negate
deriving DecidableEq, Repr

namespace Token

/-- The text that shows a token in a listing. -/
def label : Token → String
  | .number text => text
  | .function text => text ++ "()"
  | .name text | .valueOf text => text
  | .openParen => "("
  | .closeParen => ")"
  | .operator sign => String.singleton sign
  | .percent => "%"
  | .negate => "neg"

/-- A listing of tokens: their labels with one space between neighbours. -/
def listing (tokens : List Token) : String :=
  " ".intercalate (tokens.map label)

end Token

end Calculator
