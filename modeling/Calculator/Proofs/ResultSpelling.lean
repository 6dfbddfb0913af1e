-- How the digits of a result are spelled. The text on the screen is a numeral
-- with a minus sign in front of a negative one. It has no digit that could be
-- left out, it has an exponent exactly when the value is outside of the two
-- thresholds, and as an exact number it stands for the rounded value.
import Mathlib
import Calculator.Proofs.DoubleOrder
import Calculator.Proofs.NumeralSpelling
import Calculator.Proofs.ResultDigits

namespace Calculator

namespace Display

open Double

/-- The numeral that is shown for the double with ordinal `n`. -/
def numeral (n : ℕ) : Numeral :=
  if n = 0 then ⟨['0'], none, none⟩
  else if isPositional n then (shown n).positionalNumeral
  else (shown n).scientificNumeral

section

variable {n : ℕ}

theorem exists_exponent_shown (n : ℕ) : ∃ j : ℕ, (shown n).exponent = (j : ℤ) - 1074 := by
  obtain ⟨z, -, hexponent⟩ :=
    ((⟨atoms n, -1074⟩ : Decimal).significant (shownDigits n)).exists_trim_eq
  refine ⟨Decimal.digitCount (atoms n) - shownDigits n + z, ?_⟩
  rw [shown, hexponent, Decimal.significant]
  push_cast
  ring

theorem canonical_numeral (n : ℕ) : (numeral n).Canonical := by
  unfold numeral
  split
  · exact ⟨⟨by decide, by decide, by decide, by simp⟩, by simp, by simp, by simp, by simp⟩
  · rename_i hn
    have htrimmed := trimmed_shown (Nat.pos_of_ne_zero hn)
    split
    · exact Decimal.canonical_positionalNumeral htrimmed
    · exact Decimal.canonical_scientificNumeral htrimmed

theorem value_shown_zero : (shown 0).value = 0 := by
  have hatoms : atoms 0 = 0 := by
    unfold atoms
    generalize 5 ^ 1074 = scale
    rw [units_zero, Nat.zero_mul]
  rw [shown, Decimal.value_trim, hatoms]
  exact Decimal.value_significant_zero _ _

theorem value_numeral (n : ℕ) : (numeral n).value = (shown n).value := by
  unfold numeral
  split
  · rename_i hn
    rw [hn, value_shown_zero]
    simp [Numeral.value, Numeral.decimal, Decimal.value, Numeral.ofDigits, Nat.ofDigitChars]
  · split
    · obtain ⟨j, hexponent⟩ := exists_exponent_shown n
      exact Decimal.value_positionalNumeral hexponent
    · exact Decimal.value_scientificNumeral _

theorem text_numeral (hn : n ≠ 0) : (numeral n).text = magnitude n := by
  rw [numeral, if_neg hn, magnitude_eq (Nat.pos_of_ne_zero hn)]
  split
  · exact Decimal.text_positionalNumeral _
  · exact Decimal.text_scientificNumeral _

theorem exponent_numeral (h : isPositional n = true) : (numeral n).exponent = none := by
  unfold numeral
  rw [if_pos h]
  split
  · rfl
  · exact Decimal.exponent_positionalNumeral _

theorem scientific_numeral (hn : 0 < n) (h : isPositional n = false) :
    (numeral n).Scientific := by
  have hnonzero : (shown n).coefficient ≠ 0 := by
    have := trimmed_shown hn
    unfold Decimal.Trimmed at this
    omega
  have hrounds := isRounding_shown hn
  obtain ⟨hlow, hhigh⟩ := Decimal.leadingExponent_bounds hnonzero
  have hexponent : (shown n).leadingExponent ≠ 0 := by
    intro hzero
    rw [hzero] at hlow hhigh
    have hout : ¬ (10 ^ (-9 : ℤ) ≤ size n ∧ size n < 10 ^ (10 : ℤ)) := by
      rw [← isPositional_iff, h]
      decide
    rcases lt_or_ge (size n) (10 ^ (-9 : ℤ)) with hsmall | hlarge
    · have hbelow := hrounds.le_ten (size_pos hn) hsmall
      norm_num at hlow hbelow
      linarith
    · have habove := hrounds.ten_le (shownDigits_pos n) (size_pos hn)
        (not_lt.mp fun hless => hout ⟨hlarge, hless⟩)
      norm_num at hhigh habove
      linarith
  rw [numeral, if_neg hn.ne', if_neg (by rw [h]; decide)]
  exact Decimal.scientific_scientificNumeral hnonzero hexponent

end

end Display

section

open Double

variable {x : Float}

theorem display_eq_signed (hx : x.isFinite = true) :
    display x = signed (decide (x < 0)) (Display.numeral (ordinal x)) := by
  have hsign : decide (x < 0) = (isNegative x && decide (ordinal x ≠ 0)) := by
    rw [decide_eq_decide.mpr (lt_zero_iff hx), Bool.decide_and, Bool.decide_eq_true]
  rw [display, if_pos hx, hsign, signed]
  by_cases hzero : ordinal x = 0
  · simp [hzero, Display.numeral, Numeral.text, Numeral.mantissaText]
  · simp [hzero, Display.text_numeral]

theorem display_ofOrdinal (negative : Bool) {n : ℕ} (hpos : 0 < n) (hfinite : n < infinityOrdinal) :
    display (ofOrdinal negative n) = signed negative (Display.numeral n) := by
  have hx := isFinite_ofOrdinal negative hfinite
  have hsign : decide (ofOrdinal negative n < 0) = negative := by
    rw [Bool.eq_iff_iff, decide_eq_true_iff, lt_zero_iff hx, isNegative_ofOrdinal _ hfinite,
      ordinal_ofOrdinal _ hfinite]
    exact and_iff_left hpos.ne'
  rw [display_eq_signed hx, ordinal_ofOrdinal _ hfinite, hsign]

/-- The number that the text of a double stands for. -/
def shownValue (x : Float) : ℚ :=
  if x < 0 then -(Display.shown (ordinal x)).value else (Display.shown (ordinal x)).value

theorem denoted?_display (hx : x.isFinite = true) : denoted? (display x) = some (shownValue x) := by
  rw [display_eq_signed hx, denoted?_signed _ (Display.canonical_numeral _).wellFormed,
    Display.value_numeral, shownValue]
  simp only [decide_eq_true_eq]

theorem ordinal_pos (hx : x.isFinite = true) (hzero : (x == 0) = false) : 0 < ordinal x := by
  refine Nat.pos_of_ne_zero fun heq => ?_
  rw [(beq_zero_iff hx).mpr heq] at hzero
  cases hzero

theorem isRounding_shownValue (hx : x.isFinite = true) (hzero : (x == 0) = false) :
    IsRounding (Display.shownDigits (ordinal x)) (value x) (shownValue x) := by
  have hrounds := Display.isRounding_shown (ordinal_pos hx hzero)
  rw [value_eq_ite hx, shownValue]
  split
  · exact hrounds.neg
  · exact hrounds

theorem shownValue_ne_zero (hx : x.isFinite = true) (hzero : (x == 0) = false) :
    shownValue x ≠ 0 := by
  have hpos := ordinal_pos hx hzero
  have hshown := (Display.isRounding_shown hpos).pos (Display.shownDigits_pos _) (size_pos hpos)
  unfold shownValue
  split
  · exact (neg_neg_of_pos hshown).ne
  · exact hshown.ne'

/-! ## The law -/

theorem denoted?_zero : denoted? "0" = some 0 ∧ denoted? "-0" = some 0 := by
  have hzero : Numeral.WellFormed ⟨['0'], none, none⟩ := (Display.canonical_numeral 0).wellFormed
  have hvalue : Numeral.value ⟨['0'], none, none⟩ = 0 := by
    rw [← Display.value_shown_zero, ← Display.value_numeral]
    rfl
  have hplain := denoted?_signed false hzero
  have hminus := denoted?_signed true hzero
  rw [hvalue] at hplain hminus
  rw [if_pos rfl, neg_zero] at hminus
  exact ⟨hplain, hminus⟩

/-- The text of a finite double other than zero stands for its value, rounded once and half to even,
to twelve digits in their places or to ten with an exponent. It has no idle digit, and is never
zero. -/
theorem the_text_is_the_value_rounded_once (hx : x.isFinite = true) (hzero : (x == 0) = false) :
    ∃ (n : Numeral) (q : ℚ), n.Canonical ∧ display x = signed (decide (x < 0)) n ∧
      denoted? (display x) = some q ∧
      (10 ^ (-9 : ℤ) ≤ |value x| ∧ |value x| < 10 ^ (10 : ℤ) →
        n.exponent = none ∧ IsRounding 12 (value x) q) ∧
      (¬ (10 ^ (-9 : ℤ) ≤ |value x| ∧ |value x| < 10 ^ (10 : ℤ)) →
        n.Scientific ∧ IsRounding 10 (value x) q) ∧
      display x ≠ "0" ∧ display x ≠ "-0" := by
  have hpos := ordinal_pos hx hzero
  have hdenoted := denoted?_display hx
  have hrounds := isRounding_shownValue hx hzero
  have hne := shownValue_ne_zero hx hzero
  refine ⟨Display.numeral (ordinal x), shownValue x, Display.canonical_numeral _,
    display_eq_signed hx, hdenoted, fun hinside => ?_, fun houtside => ?_, fun htext => ?_,
    fun htext => ?_⟩
  · rw [abs_value hx, ← Display.isPositional_iff] at hinside
    rw [Display.shownDigits, if_pos hinside] at hrounds
    exact ⟨Display.exponent_numeral hinside, hrounds⟩
  · rw [abs_value hx, ← Display.isPositional_iff] at houtside
    rw [Display.shownDigits, if_neg houtside] at hrounds
    exact ⟨Display.scientific_numeral hpos (Bool.eq_false_of_not_eq_true houtside), hrounds⟩
  · rw [htext, denoted?_zero.1, Option.some_inj] at hdenoted
    exact hne hdenoted.symm
  · rw [htext, denoted?_zero.2, Option.some_inj] at hdenoted
    exact hne hdenoted.symm

/-- The double just below `10 ^ 10` is rounded up to it, and still has no exponent. -/
theorem the_double_below_the_upper_threshold_is_rounded_up :
    ∃ x : Float, x.isFinite = true ∧ (x == 0) = false ∧ display x = "10000000000" ∧
      ∃ (n : Numeral) (q : ℚ), n.exponent = none ∧ denoted? "10000000000" = some q ∧
        IsRounding 12 (value x) q := by
  have hx : (ofOrdinal false (Display.positionalBelow - 1)).isFinite = true := by decide +kernel
  have hzero : (ofOrdinal false (Display.positionalBelow - 1) == 0) = false := by decide +kernel
  have htext : display (ofOrdinal false (Display.positionalBelow - 1)) = "10000000000" := by
    decide +kernel
  have hinside : Display.isPositional (ordinal (ofOrdinal false (Display.positionalBelow - 1))) =
      true := by decide +kernel
  obtain ⟨n, q, -, -, hdenoted, hlaw, -⟩ := the_text_is_the_value_rounded_once hx hzero
  rw [htext] at hdenoted
  rw [Display.isPositional_iff, ← abs_value hx] at hinside
  exact ⟨_, hx, hzero, htext, n, q, (hlaw hinside).1, hdenoted, (hlaw hinside).2⟩

end

end Calculator
