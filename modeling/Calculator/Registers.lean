-- The registers of the calculator and the commands that change them: the text that
-- is being typed, the last answer, the memory, the unit of angle, and which of
-- SHIFT and ALPHA is pending.
import Calculator.Display
import Calculator.Draw
import Calculator.Evaluation

namespace Calculator

/-! ## SHIFT and ALPHA -/

/-- Which of the keys SHIFT and ALPHA is pending. They are never pending together. -/
inductive Modifier where
  | none
  | shift
  | alpha
deriving DecidableEq, Repr

namespace Modifier

/-- SHIFT again takes SHIFT back. -/
def pressShift : Modifier → Modifier
  | shift => none
  | _ => shift

/-- ALPHA again takes ALPHA back. -/
def pressAlpha : Modifier → Modifier
  | alpha => none
  | _ => alpha

end Modifier

/-- The keys that type something else while SHIFT is pending. -/
def shiftAlternatives : List (String × String) :=
  [("sin(", "asin("), ("cos(", "acos("), ("tan(", "atan("), ("log(", "10^("), ("ln(", "e^("),
    ("√(", "^2")]

/-- What a key types while SHIFT is pending, if that is something else. -/
def shiftAlternative? (key : String) : Option String :=
  (shiftAlternatives.find? fun entry => entry.1 = key).map Prod.snd

/-! ## Registers and commands -/

/-- What the calculator keeps. -/
structure Registers where
  /-- The text that is being typed. -/
  expression : String := ""
  /-- The last answer. -/
  answer : Float := 0
  memory : Float := 0
  mode : AngleMode := .degrees
  modifier : Modifier := .none

/-- What a key asks for. -/
inductive Command where
  /-- Type a key. -/
  | insert (key : String)
  | shift
  | alpha
  /-- The MODE key, which does nothing. -/
  | mode
  /-- Take all typed text back. -/
  | clear
  /-- Take the last character back. -/
  | delete
  /-- Type the last answer. -/
  | recallAnswer
  /-- Type the marker of an exponent. -/
  | exponent
  /-- Type the memory. -/
  | recallMemory
  /-- Add the value of the typed text to the memory. -/
  | addToMemory
  /-- Subtract the value of the typed text from the memory. -/
  | subtractFromMemory
  /-- Change the unit of angle. -/
  | toggleAngle
  /-- Type a random number. -/
  | random (draw : Draw)
  /-- Work out the typed text. -/
  | calculate
deriving DecidableEq, Repr

namespace Registers

/-- The environment of an evaluation at this moment. -/
def environment (r : Registers) : Environment :=
  ⟨r.mode, r.answer⟩

/-- The value of a text at this moment. -/
def evaluate (r : Registers) (text : String) : Except EvalError Float :=
  Calculator.evaluate r.environment text

/-- Adds to the typed text. -/
def type (r : Registers) (text : String) : Registers :=
  { r with expression := r.expression ++ text }

/-- Types a key. While SHIFT is pending, a key that has an alternative types it and takes SHIFT
back. -/
def insert (r : Registers) (key : String) : Registers :=
  if r.modifier = .shift then
    match shiftAlternative? key with
    | some alternative => { r.type alternative with modifier := .none }
    | none => r.type key
  else r.type key

/-- Works out a text, and gives the text to show. A success becomes the last answer. -/
def calculate (r : Registers) (text : String) : Registers × String :=
  match r.evaluate text with
  | .ok v => ({ r with answer := v }, display v)
  | .error _ => (r, Display.error)

/-- The value of the typed text for the memory keys. An error counts as zero. -/
def typedValue (r : Registers) : Float :=
  match r.evaluate r.expression with
  | .ok v => v
  | .error _ => 0

/-- Carries a command out. Some commands give a text to show. -/
def perform (r : Registers) : Command → Registers × Option String
  | .insert key => (r.insert key, none)
  | .shift => ({ r with modifier := r.modifier.pressShift }, none)
  | .alpha => ({ r with modifier := r.modifier.pressAlpha }, none)
  | .mode => (r, none)
  | .clear => ({ r with expression := "" }, some Display.initial)
  | .delete => ({ r with expression := String.ofList r.expression.toList.dropLast }, none)
  | .recallAnswer => (r.type (Double.text r.answer), none)
  | .exponent => (r.type "E", none)
  | .recallMemory => (r.type (Double.text r.memory), none)
  | .addToMemory => ({ r with memory := r.memory + r.typedValue }, none)
  | .subtractFromMemory => ({ r with memory := r.memory - r.typedValue }, none)
  | .toggleAngle => ({ r with mode := r.mode.toggle }, none)
  | .random draw => (r.type draw.text, none)
  | .calculate => ((r.calculate r.expression).1, some (r.calculate r.expression).2)

/-! ## What the screen tells of the registers -/

/-- What a key shows, and types, at this moment. -/
def label (r : Registers) (key : String) : String :=
  if r.modifier = .shift then (shiftAlternative? key).getD key else key

/-- The indicators: a letter each for SHIFT, ALPHA and a memory that is not zero, and the unit of
angle. -/
def indicators (r : Registers) : String :=
  let shift := if r.modifier = .shift then ["S"] else []
  let alpha := if r.modifier = .alpha then ["A"] else []
  let memory := if r.memory == 0 then [] else ["M"]
  " ".intercalate (shift ++ alpha ++ memory ++ [r.mode.label])

end Registers

end Calculator
