-- The characters of a result on the screen. A finite value is shown with the
-- characters of a numeral only, so it is never taken for an error.
import Calculator.Display
import Calculator.Proofs.ShortestText

namespace Calculator

namespace Decimal

variable {d : Decimal}

theorem mem_positional : ∀ c ∈ d.positional, c.isDigit = true ∨ c ∈ Numeral.punctuation := by
  rw [← text_positionalNumeral]
  exact Numeral.mem_text d.wellFormed_positionalNumeral

theorem mem_scientific : ∀ c ∈ d.scientific, c.isDigit = true ∨ c ∈ Numeral.punctuation := by
  have hdigits := isDigits_digits d.coefficient
  have hexponent := isDigits_digits (d.exponent + ((digits d.coefficient).length - 1 : Nat)).natAbs
  intro c hc
  simp only [scientific, List.mem_append, List.mem_cons] at hc
  rcases hc with (hfirst | htail) | rfl | rfl | hc
  · exact Or.inl (hdigits c (List.mem_of_mem_take hfirst))
  · split at htail
    · cases htail
    · rcases List.mem_cons.mp htail with rfl | hrest
      · exact Or.inr (by decide)
      · exact Or.inl (hdigits c (List.mem_of_mem_drop hrest))
  · exact Or.inr (by decide)
  · split
    · exact Or.inr (by decide)
    · exact Or.inr (by decide)
  · exact Or.inl (hexponent c hc)

end Decimal

theorem Double.mem_ordinalText {n : Nat} :
    ∀ c ∈ Double.ordinalText n, c.isDigit = true ∨ c ∈ Numeral.punctuation := by
  intro c hc
  unfold Double.ordinalText at hc
  split at hc
  · cases List.mem_singleton.mp hc
    exact Or.inl rfl
  · exact Decimal.mem_positional c hc

theorem display_of_ordinal_zero {v : Float} (hv : v.isFinite = true)
    (hzero : Double.ordinal v = 0) : display v = "0" := by
  rw [display, if_pos hv]
  simp only [hzero, if_true]

/-- A finite value is shown with digits, a point, the marker of an exponent, and signs. -/
theorem mem_display {v : Float} (hv : v.isFinite = true) :
    ∀ c ∈ (display v).toList, c.isDigit = true ∨ c ∈ Numeral.punctuation := by
  intro c hc
  unfold display at hc
  rw [if_pos hv] at hc
  simp only at hc
  split at hc
  · cases List.mem_singleton.mp hc
    exact Or.inl rfl
  · rw [String.toList_ofList] at hc
    rcases List.mem_append.mp hc with hsign | hsize
    · split at hsign
      · cases List.mem_singleton.mp hsign
        exact Or.inr (by decide)
      · cases hsign
    · unfold Display.magnitude at hsize
      simp only at hsize
      split at hsize
      · exact Double.mem_ordinalText c hsize
      · exact Decimal.mem_scientific c hsize

theorem display_ne_error {v : Float} (hv : v.isFinite = true) : display v ≠ Display.error := by
  intro heq
  have hr : 'r' ∈ (display v).toList := by
    rw [heq]
    decide
  rcases mem_display hv 'r' hr with h | h
  · cases h
  · exact absurd h (by decide)

end Calculator
