-- The unit of angle. It matters only where a function takes an angle or gives
-- one: inside a calculation, every angle is in radians.

namespace Calculator

/-- The unit in which angles are typed and shown. -/
inductive AngleMode where
  | degrees
  | radians
deriving DecidableEq, Repr

namespace AngleMode

instance : Inhabited AngleMode := ⟨degrees⟩

/-- The other unit. -/
def toggle : AngleMode → AngleMode
  | degrees => radians
  | radians => degrees

/-- The text that the screen shows for the unit. -/
def label : AngleMode → String
  | degrees => "DEG"
  | radians => "RAD"

/-- The double nearest to π/180. -/
def radiansPerDegree : Float := 0.017453292519943295

/-- The double nearest to 180/π. -/
def degreesPerRadian : Float := 57.29577951308232

/-- The angle in radians of an angle in this unit. -/
def toRadians (mode : AngleMode) (angle : Float) : Float :=
  match mode with
  | degrees => angle * radiansPerDegree
  | radians => angle

/-- The angle in this unit of an angle in radians. -/
def ofRadians (mode : AngleMode) (angle : Float) : Float :=
  match mode with
  | degrees => angle * degreesPerRadian
  | radians => angle

@[simp] theorem toggle_toggle (mode : AngleMode) : mode.toggle.toggle = mode := by
  cases mode <;> rfl

end AngleMode

end Calculator
