-- The keypad: the buttons in the order in which they stand, what each one
-- shows, and what a click does. A click goes to the first button that shows
-- the text at that moment.
import Calculator.Panel

namespace Calculator

/-- A button of the keypad. -/
inductive Button where
  /-- A button that types a key, and shows what it types. -/
  | key (text : String)
  /-- A button that asks for a command. A tip may appear over it. -/
  | action (caption : String) (tip : Option String) (command : Command)
  /-- The button that types a random number. -/
  | random (caption : String) (tip : String)
deriving DecidableEq, Repr

namespace Button

/-- What a button shows at this moment. -/
def shown (r : Registers) : Button → String
  | key text => r.label text
  | action caption _ _ => caption
  | random caption _ => caption

/-- The text that appears over a button. -/
def tip? : Button → Option String
  | key _ => none
  | action _ tip _ => tip
  | random _ tip => some tip

/-- What a click on a button asks for, when `draw` is the random number that is drawn. -/
def command (draw : Draw) : Button → Command
  | key text => .insert text
  | action _ _ command => command
  | random _ _ => .random draw

end Button

/-! ## The buttons -/

namespace Keypad

/-- The text at the top of the screen. -/
def title : String := "SciCal"

/-- The row of modes. -/
def modes : List Button :=
  [.action "SHIFT" none .shift, .action "ALPHA" none .alpha,
    .action "MODE" (some "COMP/STAT/TBL (non implémenté)") .mode,
    .action "ON" (some "Efface l’expression") .clear,
    .action "DRG" (some "Bascule DEG / RAD") .toggleAngle,
    .random "RND" "Insère un nombre aléatoire"]

/-- The rows of functions and signs. -/
def functions : List Button :=
  [.key "sin(", .key "cos(", .key "tan(", .key "log(", .key "ln(", .key "√(",
    .key "^", .key "(", .key ")", .key "%", .key ",", .key "π"]

/-- The row of the memory. -/
def memory : List Button :=
  [.action "RCL" (some "Rappelle M") .recallMemory,
    .action "M+" (some "M += valeur de l’expression") .addToMemory,
    .action "M−" (some "M -= valeur de l’expression") .subtractFromMemory,
    .action "MR" (some "Insère M") .recallMemory]

/-- The rows of digits. -/
def digits : List Button :=
  [.key "7", .key "8", .key "9",
    .action "DEL" (some "Efface le dernier caractère") .delete,
    .action "AC" (some "Efface l’expression") .clear,
    .key "4", .key "5", .key "6", .key "×", .key "÷",
    .key "1", .key "2", .key "3", .key "+", .key "−",
    .key "0", .key ".",
    .action "EXP" (some "×10^ (insère E)") .exponent,
    .action "Ans" (some "Insère la dernière réponse") .recallAnswer,
    .action "=" (some "Calcule") .calculate]

/-- All buttons, in their order. -/
def buttons : List Button :=
  modes ++ functions ++ memory ++ digits

end Keypad

/-! ## Clicks and keys -/

namespace Panel

/-- The first button that shows a text at this moment. -/
def button? (p : Panel) (text : String) : Option Button :=
  Keypad.buttons.find? fun button => button.shown p.registers = text

/-- A click on the first button that shows a text. With no such button nothing happens. -/
def click (p : Panel) (draw : Draw) (text : String) : Panel :=
  match p.button? text with
  | some button => p.press (button.command draw)
  | none => p

/-- A key of the keyboard. Escape clears, and no other key does anything. -/
def keyboard (p : Panel) (name : String) : Panel :=
  if name = "Escape" then p.press .clear else p

/-- The lines of the screen, from top to bottom. -/
def lines (p : Panel) : List String :=
  [Keypad.title, p.registers.indicators, p.registers.expression, p.result]

/-- What the buttons show, in their order. -/
def captions (p : Panel) : List String :=
  Keypad.buttons.map (Button.shown p.registers)

end Panel

end Calculator
