-- The operators between two operands, their signs, and how strongly they bind.

namespace Calculator

/-- An operator between two operands. -/
inductive Operator where
  | add
  | subtract
  | multiply
  | divide
  | power
  /-- The comma. It binds nothing and does nothing. -/
  | separate
deriving DecidableEq, Repr

/-- Which of two equal operators in a row comes first. -/
inductive Associativity where
  /-- The left one comes first. -/
  | left
  /-- The right one comes first. -/
  | right
deriving DecidableEq, Repr

namespace Operator

/-- The operator that a sign stands for, if it is the sign of one. -/
def ofSign? (sign : Char) : Option Operator :=
  if sign = '+' then some add
  else if sign = '-' then some subtract
  else if sign = '*' then some multiply
  else if sign = '/' then some divide
  else if sign = '^' then some power
  else if sign = ',' then some separate
  else none

theorem ofSign?_ne_separate {sign : Char} (h : sign ≠ ',') : ofSign? sign ≠ some separate := by
  simp only [ofSign?, if_neg h]
  repeat' split
  all_goals simp

/-- How strongly an operator binds, and to which side it groups. The comma has no precedence. -/
def precedence? : Operator → Option (Nat × Associativity)
  | add | subtract => some (2, .left)
  | multiply | divide => some (3, .left)
  | power => some (4, .right)
  | separate => none

end Operator

/-- The precedence of a sign. Signs of no operator have none. -/
def precedenceOfSign? (sign : Char) : Option (Nat × Associativity) :=
  (Operator.ofSign? sign).bind Operator.precedence?

end Calculator
