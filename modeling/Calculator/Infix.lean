-- Which rows of typed tokens are expressions. The grammar says which tokens may
-- stand next to each other, and not how strongly they bind. A row that lacks
-- parentheses is completed at its ends.
import Calculator.Token

namespace Calculator

/-- The signs of the operators that need an operand on each side. -/
def binarySigns : List Char := ['+', '-', '*', '/', '^']

/-- A row of typed tokens that is an expression. -/
inductive Infix : List Token → Prop where
  | number (text : String) : Infix [.number text]
  | name (text : String) : Infix [.name text]
  | group {a : List Token} : Infix a → Infix (.openParen :: (a ++ [.closeParen]))
  | call {a : List Token} (text : String) :
      Infix a → Infix (.function text :: .openParen :: (a ++ [.closeParen]))
  /-- The bare root sign takes what follows it. -/
  | bareCall {a : List Token} (text : String) : Infix a → Infix (.function text :: a)
  | negate {a : List Token} : Infix a → Infix (.operator '-' :: a)
  | percent {a : List Token} : Infix a → Infix (a ++ [.percent])
  | binary {a b : List Token} {sign : Char} :
      sign ∈ binarySigns → Infix a → Infix b → Infix (a ++ .operator sign :: b)

/-! ## Parentheses -/

/-- A row in which every parenthesis has a partner. -/
structure Balanced (tokens : List Token) : Prop where
  /-- No part from the start on closes more parentheses than it opens. -/
  closes_le : ∀ front, front <+: tokens → front.count .closeParen ≤ front.count .openParen
  /-- The whole row closes as many as it opens. -/
  opens_eq : tokens.count .openParen = tokens.count .closeParen

/-- Parentheses with no partner among the tokens so far. -/
structure Unpaired where
  /-- Closing parentheses that nothing has opened. -/
  closing : Nat := 0
  /-- Opening parentheses that nothing has closed yet. -/
  opening : Nat := 0
deriving DecidableEq, Repr

/-- One more token. A closing parenthesis pairs with the latest open one. -/
def Unpaired.step (u : Unpaired) : Token → Unpaired
  | .openParen => { u with opening := u.opening + 1 }
  | .closeParen =>
    if u.opening = 0 then { u with closing := u.closing + 1 }
    else { u with opening := u.opening - 1 }
  | _ => u

/-- The parentheses with no partner in a row of tokens. -/
def unpaired (tokens : List Token) : Unpaired :=
  tokens.foldl Unpaired.step {}

/-- The row with the missing opening parentheses in front and the missing closing ones behind. -/
def completed (tokens : List Token) : List Token :=
  List.replicate (unpaired tokens).closing .openParen ++ tokens ++
    List.replicate (unpaired tokens).opening .closeParen

end Calculator
