-- From tokens as they are typed to tokens in postfix order. Operands go straight to
-- the output, and everything else waits on a stack, the latest on top, until a
-- token arrives that it binds more strongly than. Nothing is refused here.
import Calculator.Operator
import Calculator.Token

namespace Calculator

/-! ## How strongly a waiting token binds -/

/-- The strength of prefix minus, in tenths of a precedence: more than a product, less than a
power. -/
def negateStrength : Nat := 35

/-- The strength of a waiting token, in tenths of a precedence. A function, a parenthesis, a comma
and an unknown sign have none: nothing goes past them. -/
def Token.strength? : Token → Option Nat
  | .operator sign => (precedenceOfSign? sign).map fun (precedence, _) => 10 * precedence
  | .negate => some negateStrength
  | _ => none

/-- Does a waiting token come before an operator of the given precedence that arrives now?
Of equal operators, the left one comes first when they group to the left. -/
def comesFirst (precedence : Nat) (associativity : Associativity) (waiting : Token) : Bool :=
  match waiting.strength? with
  | none => false
  | some strength =>
    match associativity with
    | .left => 10 * precedence ≤ strength
    | .right => 10 * precedence < strength

/-! ## One token -/

/-- What is kept between two tokens. -/
structure Waiting where
  /-- The tokens that wait, the latest first. -/
  stack : List Token := []
  /-- Does an operand end here? If not, a minus sign is a prefix. -/
  afterOperand : Bool := false
deriving DecidableEq, Repr

namespace Waiting

/-- Puts a token on the stack. An operand is due after it. -/
def hold (w : Waiting) (token : Token) : Waiting :=
  ⟨token :: w.stack, false⟩

/-- An operator that arrives sends out the waiting tokens that come before it, and waits. -/
def holdOperator (w : Waiting) (sign : Char) : List Token × Waiting :=
  match precedenceOfSign? sign with
  | none => ([], w.hold (.operator sign))
  | some (precedence, associativity) =>
    let first := comesFirst precedence associativity
    (w.stack.takeWhile first, hold ⟨w.stack.dropWhile first, false⟩ (.operator sign))

/-- Splits off a function on top of the stack, if there is one. -/
def splitFunction : List Token → List Token × List Token
  | .function text :: rest => ([.function text], rest)
  | stack => ([], stack)

/-- A closing parenthesis sends out everything down to its partner, and then the function that the
parentheses belong to. -/
def close (w : Waiting) : List Token × Waiting :=
  let inside := w.stack.takeWhile (· ≠ .openParen)
  let outside := (w.stack.dropWhile (· ≠ .openParen)).drop 1
  let (function, stack) := splitFunction outside
  (inside ++ function, ⟨stack, true⟩)

/-- The tokens that one more token sends out, and what waits after it. -/
def step (w : Waiting) : Token → List Token × Waiting
  | .number text => ([.number text], { w with afterOperand := true })
  | .name text => ([.valueOf text], { w with afterOperand := true })
  | .valueOf text => ([.valueOf text], { w with afterOperand := true })
  | .percent => ([.percent], { w with afterOperand := true })
  | .function text => ([], w.hold (.function text))
  | .openParen => ([], w.hold .openParen)
  | .closeParen => w.close
  | .negate => ([], w.hold .negate)
  | .operator sign =>
    if sign = '-' ∧ w.afterOperand = false then ([], w.hold .negate)
    else w.holdOperator sign

/-- At the end of the text everything that waits is sent out, and open parentheses close. -/
def flush (w : Waiting) : List Token :=
  w.stack.filter (· ≠ .openParen)

end Waiting

/-! ## All tokens -/

/-- The output for the tokens that are still to come. -/
def postfixFrom (w : Waiting) : List Token → List Token
  | [] => w.flush
  | token :: rest => (w.step token).1 ++ postfixFrom (w.step token).2 rest

/-- The tokens in postfix order: each operator after its operands. -/
def toPostfix (tokens : List Token) : List Token :=
  postfixFrom {} tokens

@[simp] theorem postfixFrom_nil (w : Waiting) : postfixFrom w [] = w.flush := rfl

@[simp] theorem postfixFrom_cons (w : Waiting) (token : Token) (rest : List Token) :
    postfixFrom w (token :: rest) = (w.step token).1 ++ postfixFrom (w.step token).2 rest := rfl

end Calculator
