-- The order of the results on the screen. A larger value never shows a smaller
-- number, though the values on the two sides of a threshold are rounded to a
-- different number of digits: the threshold is a power of ten, which neither
-- rounding passes. And the text of the other sign is the same but for the minus.
import Mathlib
import Calculator.Proofs.ResultSpelling

namespace Calculator

namespace Display

open Double

/-! ## The order of what is shown -/

section

variable {m n : ℕ}

/-- Two doubles on different sides of a threshold have a power of ten between them. -/
theorem exists_ten_between (hmn : m ≤ n) (h : isPositional m ≠ isPositional n) :
    ∃ j : ℤ, size m < 10 ^ j ∧ 10 ^ j ≤ size n := by
  have hsize : size m ≤ size n := size_le_size.mpr hmn
  cases hm : isPositional m with
  | true =>
    have hn : ¬ isPositional n = true := fun hn => h (hm.trans hn.symm)
    rw [isPositional_iff] at hm hn
    exact ⟨10, hm.2, not_lt.mp fun hless => hn ⟨le_trans hm.1 hsize, hless⟩⟩
  | false =>
    have hn : isPositional n = true := by
      rw [hm] at h
      exact Bool.eq_true_of_not_eq_false h.symm
    have hm : ¬ isPositional m = true := by
      rw [hm]
      decide
    rw [isPositional_iff] at hm hn
    exact ⟨-9, not_le.mp fun hlarge => hm ⟨hlarge, lt_of_le_of_lt hsize hn.2⟩, hn.1⟩

theorem shown_le_shown (hmn : m ≤ n) : (shown m).value ≤ (shown n).value := by
  rcases Nat.eq_zero_or_pos m with rfl | hm
  · rw [value_shown_zero]
    exact Decimal.value_nonneg _
  · have hn : 0 < n := by omega
    have hrounds := isRounding_shown hm
    have hrounds' := isRounding_shown hn
    by_cases hsame : isPositional m = isPositional n
    · -- Both are rounded to the same number of digits.
      have hdigits : shownDigits m = shownDigits n := by rw [shownDigits, shownDigits, hsame]
      rw [hdigits] at hrounds
      exact hrounds.le hrounds' (shownDigits_pos n) (size_pos hm) (size_le_size.mpr hmn)
    · obtain ⟨j, hbelow, habove⟩ := exists_ten_between hmn hsame
      calc (shown m).value ≤ 10 ^ j := hrounds.le_ten (size_pos hm) hbelow
        _ ≤ (shown n).value := hrounds'.ten_le (shownDigits_pos n) (size_pos hn) habove

end

end Display

section

open Double

variable {x y : Float}

theorem shownValue_le_shownValue (hx : x.isFinite = true) (hy : y.isFinite = true) (hxy : x ≤ y) :
    shownValue x ≤ shownValue y := by
  have hvalue := (le_iff_value_le hx hy).mp hxy
  have hposx : x < 0 → 0 < size (ordinal x) := fun h =>
    size_pos (Nat.pos_of_ne_zero ((lt_zero_iff hx).mp h).2)
  have hposy : y < 0 → 0 < size (ordinal y) := fun h =>
    size_pos (Nat.pos_of_ne_zero ((lt_zero_iff hy).mp h).2)
  have hshownx := (Display.shown (ordinal x)).value_nonneg
  have hshowny := (Display.shown (ordinal y)).value_nonneg
  have hsizex := size_nonneg (ordinal x)
  rw [value_eq_ite hx, value_eq_ite hy] at hvalue
  unfold shownValue
  by_cases hnegx : x < 0
  · rw [if_pos hnegx] at hvalue ⊢
    by_cases hnegy : y < 0
    · rw [if_pos hnegy] at hvalue ⊢
      have hle := size_le_size.mp (neg_le_neg_iff.mp hvalue)
      exact neg_le_neg (Display.shown_le_shown hle)
    · rw [if_neg hnegy]
      linarith
  · rw [if_neg hnegx] at hvalue ⊢
    by_cases hnegy : y < 0
    · rw [if_pos hnegy] at hvalue
      have := hposy hnegy
      linarith
    · rw [if_neg hnegy] at hvalue ⊢
      exact Display.shown_le_shown (size_le_size.mp hvalue)

/-! ## The other sign -/

theorem signed_true (n : Numeral) : signed true n = "-" ++ signed false n := by
  apply String.toList_inj.mp
  simp [signed]

theorem display_neg_eq_signed (hx : x.isFinite = true) (hzero : (x == 0) = false) :
    display (-x) = signed (!decide (x < 0)) (Display.numeral (ordinal x)) := by
  have hpos := ordinal_pos hx hzero
  have hsign : decide (x < 0) = isNegative x := by
    rw [Bool.eq_iff_iff, decide_eq_true_iff, lt_zero_iff hx]
    exact and_iff_left hpos.ne'
  rw [neg_eq_ofOrdinal, display_ofOrdinal _ hpos (of_isFinite hx).2.2, hsign]

/-! ## The law -/

/-- Of two finite doubles, the text of the one that is not larger stands for a number that is not
larger. The negative of a double other than zero has the same text with the other sign. -/
theorem the_text_keeps_the_order_and_the_sign (hx : x.isFinite = true) (hy : y.isFinite = true) :
    (x ≤ y → ∃ p q : ℚ, denoted? (display x) = some p ∧ denoted? (display y) = some q ∧ p ≤ q) ∧
      ((x == 0) = false →
        (x < 0 → display x = "-" ++ display (-x)) ∧
        (¬ x < 0 → display (-x) = "-" ++ display x)) := by
  refine ⟨fun hxy => ⟨_, _, denoted?_display hx, denoted?_display hy,
    shownValue_le_shownValue hx hy hxy⟩, fun hzero => ⟨fun hsign => ?_, fun hsign => ?_⟩⟩
  · rw [display_eq_signed hx, display_neg_eq_signed hx hzero, decide_eq_true hsign]
    exact signed_true _
  · rw [display_eq_signed hx, display_neg_eq_signed hx hzero, decide_eq_false hsign]
    exact signed_true _

/-- The two doubles at the upper threshold show the same number in two ways. -/
theorem the_texts_at_the_upper_threshold_are_in_order :
    ∃ x y : Float, x ≤ y ∧ display x = "10000000000" ∧ display y = "1e+10" ∧
      (∃ p q : ℚ, denoted? "10000000000" = some p ∧ denoted? "1e+10" = some q ∧ p ≤ q) ∧
      display (-x) = "-10000000000" := by
  have hx : (ofOrdinal false (Display.positionalBelow - 1)).isFinite = true := by decide +kernel
  have hy : (ofOrdinal false Display.positionalBelow).isFinite = true := by decide +kernel
  have hle : ofOrdinal false (Display.positionalBelow - 1) ≤
      ofOrdinal false Display.positionalBelow := by decide +kernel
  have htext : display (ofOrdinal false (Display.positionalBelow - 1)) = "10000000000" := by
    decide +kernel
  have htext' : display (ofOrdinal false Display.positionalBelow) = "1e+10" := by decide +kernel
  have hlaw := the_text_keeps_the_order_and_the_sign hx hy
  have horder := hlaw.1 hle
  have hsign := (hlaw.2 (by decide +kernel)).2 (by decide +kernel)
  rw [htext, htext'] at horder
  rw [htext] at hsign
  exact ⟨_, _, hle, htext, htext', horder, hsign⟩

end

end Calculator
