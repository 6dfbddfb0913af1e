-- Whole runs of commands: where they lead from given registers, and what they
-- met on the way.
import Calculator.Keypad

namespace Calculator

/-- Does a command write the result line? -/
def Command.writesResult : Command → Bool
  | .clear => true
  | .calculate => true
  | _ => false

namespace Registers

/-- The registers after a row of commands. -/
def performAll (r : Registers) (commands : List Command) : Registers :=
  commands.foldl (fun r command => (r.perform command).1) r

/-- The registers that commands lead to from the start. -/
def Reachable (r : Registers) : Prop :=
  ∃ commands, performAll {} commands = r

/-- The commands of a row, each with the registers of its own moment. -/
def moments (r : Registers) : List Command → List (Registers × Command)
  | [] => []
  | command :: rest => (r, command) :: moments (r.perform command).1 rest

/-- The last command of a row that writes the result line, with the registers of its moment. -/
def lastWriting? (r : Registers) (commands : List Command) : Option (Registers × Command) :=
  ((r.moments commands).filter fun moment => moment.2.writesResult).getLast?

/-- The value of the typed text at a moment, if it has one. -/
def typed? (r : Registers) : Option Float :=
  (Calculator.evaluate ⟨r.mode, r.answer⟩ r.expression).toOption

/-- The answer that a command gives at its moment, if it gives one. -/
def answered? : Registers × Command → Option Float
  | (r, .calculate) => r.typed?
  | _ => none

/-- The memory after a command, which adds the value of the typed text at its moment, subtracts it,
or leaves the memory alone. A text with no value counts as zero. -/
def accumulate (memory : Float) : Registers × Command → Float
  | (r, .addToMemory) => memory + r.typed?.getD 0
  | (r, .subtractFromMemory) => memory - r.typed?.getD 0
  | _ => memory

@[simp] theorem performAll_nil (r : Registers) : r.performAll [] = r := rfl

@[simp] theorem performAll_cons (r : Registers) (command : Command) (rest : List Command) :
    r.performAll (command :: rest) = (r.perform command).1.performAll rest := rfl

end Registers

namespace Panel

/-- The panel after a row of commands. -/
def pressAll (p : Panel) (commands : List Command) : Panel :=
  commands.foldl press p

/-- The panel after a row of clicks, each with the number that is drawn for it. -/
def clickAll (p : Panel) (clicks : List (Draw × String)) : Panel :=
  clicks.foldl (fun p click => p.click click.1 click.2) p

/-- The clicks of a row, each with the panel of its own moment. -/
def clickMoments (p : Panel) : List (Draw × String) → List (Panel × String)
  | [] => []
  | click :: rest => (p, click.2) :: clickMoments (p.click click.1 click.2) rest

/-- What the button that is clicked shows at its moment, if it is one that types a key. -/
def keyShown? : Panel × String → Option String
  | (p, text) =>
    match p.button? text with
    | some (.key key) => some ((Button.key key).shown p.registers)
    | _ => none

@[simp] theorem registers_press (p : Panel) (command : Command) :
    (p.press command).registers = (p.registers.perform command).1 := rfl

end Panel

end Calculator
