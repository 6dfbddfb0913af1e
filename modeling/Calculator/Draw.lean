-- A random number as the RND key types it: eight places after the point. It is
-- drawn from zero on and below one, and rounding may make it one.

namespace Calculator

/-- A random number, counted in hundred-millionths. -/
structure Draw where
  hundredMillionths : Nat
  le_one : hundredMillionths ≤ 10 ^ 8 := by decide
deriving DecidableEq, Repr

instance : Inhabited Draw := ⟨⟨0, by decide⟩⟩

/-- The text of a draw: one digit, a point, eight digits. -/
def Draw.text (draw : Draw) : String :=
  let places := Nat.toDigits 10 (draw.hundredMillionths % 10 ^ 8)
  String.ofList
    (Nat.toDigits 10 (draw.hundredMillionths / 10 ^ 8) ++
      '.' :: (List.replicate (8 - places.length) '0' ++ places))

end Calculator
