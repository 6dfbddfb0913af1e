-- What can be told about tokens in postfix order without working anything out:
-- how many operands there are after each token, and where that goes wrong.
import Calculator.Evaluation

namespace Calculator

namespace Shape

/-- Takes `needed` operands away and puts one back. -/
def replace (needed depth : Nat) : Except EvalError Nat :=
  if needed ≤ depth then .ok (depth - needed + 1) else .error .malformed

/-- The number of operands after one more token. -/
def step (depth : Nat) : Token → Except EvalError Nat
  | .number text =>
    if (Double.ofText? text).isSome then .ok (depth + 1) else .error (.invalidNumber text)
  | .name _ => .ok (depth + 1)
  | .valueOf _ => .ok (depth + 1)
  | .percent => replace 1 depth
  | .negate => replace 1 depth
  | .operator sign =>
    if sign = ',' then .ok depth
    else if (Operator.ofSign? sign).isSome then replace 2 depth
    else .error (.unknownOperator sign)
  | .function text =>
    match NamedFunction.ofName? text with
    | none => .error (.unknownFunction text)
    | some _ => replace 1 depth
  | .openParen => .error .malformed
  | .closeParen => .error .malformed

/-- Counts through tokens in postfix order, from `depth` operands on. At the end one is left. -/
def scan (depth : Nat) : List Token → Except EvalError Unit
  | [] => if depth = 1 then .ok () else .error .malformed
  | token :: rest =>
    match step depth token with
    | .ok next => scan next rest
    | .error cause => .error cause

end Shape

end Calculator
