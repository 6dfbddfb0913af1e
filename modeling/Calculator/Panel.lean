-- The panel of the calculator: the registers and the line that shows the
-- result. The result line changes only when a command gives a text to show.
import Calculator.Registers

namespace Calculator

/-- The registers and the result line. -/
structure Panel where
  registers : Registers := {}
  result : String := Display.initial

namespace Panel

/-- Carries a command out, and shows the text that it gives, if any. -/
def press (p : Panel) (command : Command) : Panel :=
  let (registers, shown) := p.registers.perform command
  ⟨registers, shown.getD p.result⟩

end Panel

end Calculator
