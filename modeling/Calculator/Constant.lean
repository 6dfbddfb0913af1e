-- The values of names. `Ans` is the last answer, and `PI` and `E` are the usual
-- constants, in any letter case. Every other name is worth zero.

namespace Calculator

namespace Constant

/-- The double nearest to π. -/
def pi : Float := 3.141592653589793

/-- The double nearest to e. -/
def e : Float := 2.718281828459045

/-- The capital of a letter, as far as the names of constants need it. Outside ASCII, the long s and
the dotless i have ASCII capitals, and the small pi and the pi symbol share theirs. -/
def capital (c : Char) : Char :=
  if c = 'ſ' then 'S'
  else if c = 'ı' then 'I'
  else if c = 'π' ∨ c = 'ϖ' then 'Π'
  else c.toUpper

theorem capital_of_isAlpha {c : Char} (h : c.isAlpha = true) : capital c = c.toUpper := by
  have hne : ∀ d : Char, d.isAlpha = false → c ≠ d := by
    rintro d hd rfl
    rw [h] at hd
    cases hd
  simp [capital, hne 'ſ' (by decide), hne 'ı' (by decide), hne 'π' (by decide),
    hne 'ϖ' (by decide)]

/-- The value of a name, when `answer` is the last answer. -/
def value (answer : Float) (name : String) : Float :=
  let capitals := name.toList.map capital
  if capitals = ['A', 'N', 'S'] then answer
  else if capitals = ['P', 'I'] ∨ capitals = ['Π'] then pi
  else if capitals = ['E'] then e
  else 0

end Constant

end Calculator
