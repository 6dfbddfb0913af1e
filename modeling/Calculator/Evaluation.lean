-- The value of an expression. A text is made plain, cut into tokens, put in
-- postfix order, and worked out on a stack of doubles. A text with nothing to
-- read is worth zero, and a value that is not finite is an error.
import Calculator.Constant
import Calculator.Double.Text
import Calculator.EvalError
import Calculator.Glyph
import Calculator.NamedFunction
import Calculator.Postfix
import Calculator.Token.Lexer

namespace Calculator

/-- What the value of an expression depends on besides the expression. -/
structure Environment where
  /-- The unit of angle. -/
  mode : AngleMode := .degrees
  /-- The last answer. -/
  answer : Float := 0

/-- The operands that wait for an operator, the latest first. -/
abbrev Operands := List Float

namespace Operands

/-- Replaces the latest operand. -/
def unary (f : Float → Float) : Operands → Except EvalError Operands
  | a :: rest => .ok (f a :: rest)
  | [] => .error .malformed

/-- Replaces the latest two operands. The latest is the right one. -/
def binary (f : Float → Float → Float) : Operands → Except EvalError Operands
  | b :: a :: rest => .ok (f a b :: rest)
  | _ => .error .malformed

/-- Works out an operator. The comma leaves the operands alone, and needs none. -/
def combine : Operator → Operands → Except EvalError Operands
  | .add => binary (· + ·)
  | .subtract => binary (· - ·)
  | .multiply => binary (· * ·)
  | .divide => binary (· / ·)
  | .power => binary Float.pow
  | .separate => .ok

end Operands

namespace Environment

/-- Works out one token in postfix order. A sign or a name that is not known is an error before the
operands are looked at. -/
def step (env : Environment) (operands : Operands) : Token → Except EvalError Operands
  | .number text =>
    match Double.ofText? text with
    | some v => .ok (v :: operands)
    | none => .error (.invalidNumber text)
  | .name text => .ok (Constant.value env.answer text :: operands)
  | .valueOf text => .ok (Constant.value env.answer text :: operands)
  | .percent => operands.unary (· / 100)
  | .negate => operands.unary (- ·)
  | .operator sign =>
    match Operator.ofSign? sign with
    | some op => operands.combine op
    | none => .error (.unknownOperator sign)
  | .function text =>
    match NamedFunction.ofName? text with
    | some f => operands.unary (f.apply env.mode)
    | none => .error (.unknownFunction text)
  | .openParen => .error .malformed
  | .closeParen => .error .malformed

/-- Works out tokens in postfix order from the given operands on. -/
def run (env : Environment) (operands : Operands) : List Token → Except EvalError Operands
  | [] => .ok operands
  | token :: rest =>
    match env.step operands token with
    | .ok next => env.run next rest
    | .error cause => .error cause

end Environment

/-- The one operand that is left at the end. -/
def Operands.single : Operands → Except EvalError Float
  | [v] => .ok v
  | _ => .error .malformed

/-- The value of tokens in postfix order. It may be infinite or no number. -/
def evaluatePostfix (env : Environment) (tokens : List Token) : Except EvalError Float :=
  match env.run [] tokens with
  | .ok operands => operands.single
  | .error cause => .error cause

/-- Refuses a value that is not finite. -/
def finite (v : Float) : Except EvalError Float :=
  if v.isFinite then .ok v else .error .notFinite

/-- The value of a text. -/
def evaluate (env : Environment) (text : String) : Except EvalError Float :=
  let text := plain text
  if text = "" then .ok 0
  else
    match evaluatePostfix env (toPostfix (tokenize text)) with
    | .ok v => finite v
    | .error cause => .error cause

end Calculator
