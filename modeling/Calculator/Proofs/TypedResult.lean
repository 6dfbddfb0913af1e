-- Typing a result as it is shown: it shows the same text again. The exceptions are
-- the values that are rounded up to a threshold, where the other notation starts,
-- and the values next to the largest double, which are rounded up past it.
import Mathlib
import Calculator.Proofs.RecallRoundTrip
import Calculator.Proofs.ResultSpelling
import Calculator.Proofs.RoundedAgain

namespace Calculator

namespace Display

open Double

section

variable {m n : ℕ} {q : ℚ}

/-! ## The notation of the nearest double -/

theorem positionalBelow_le_of_around (h : Around m q) (hq : 10 ^ (10 : ℤ) ≤ q) :
    positionalBelow ≤ m := by
  have hbefore : size (positionalBelow - 1) < size positionalBelow :=
    size_lt_size.mpr (Nat.sub_lt (lt_trans positionalFrom_pos positionalFrom_lt_positionalBelow)
      Nat.one_pos)
  rw [size_positionalBelow] at hbefore
  refine h.le_of_middle_lt ?_
  rw [size_positionalBelow]
  linarith

/-- The double nearest to what is shown is written in the same way, unless a threshold is reached
from below. -/
theorem isPositional_of_around (hn : 0 < n) (h : IsRounding (shownDigits n) (size n) q)
    (hm : Around m q) (hupper : ¬ (size n < 10 ^ (10 : ℤ) ∧ q = 10 ^ (10 : ℤ)))
    (hlower : ¬ (size n < 10 ^ (-9 : ℤ) ∧ q = 10 ^ (-9 : ℤ))) :
    isPositional m = isPositional n := by
  have hpos := size_pos hn
  rcases lt_or_ge (size n) (10 ^ (-9 : ℤ)) with hsmall | hlarge
  · have hn' := isPositional_of_lt hsmall
    have hdigits : shownDigits n = 10 := by rw [shownDigits, hn']; rfl
    rw [hdigits] at h
    have hbelow := h.le_ten_sub (by decide) hpos hsmall fun heq => hlower ⟨hsmall, heq⟩
    have hm' : m < positionalFrom :=
      hm.lt_of_lt_middle (lt_of_le_of_lt (by linarith) lt_middle_positionalFrom)
    rw [hn', isPositional, decide_eq_false (Nat.not_le.mpr hm'), Bool.false_and]
  · have hm' := positionalFrom_le_of_around hm (h.ten_le (shownDigits_pos n) hpos hlarge)
    rcases lt_or_ge (size n) (10 ^ (10 : ℤ)) with hinside | habove
    · have hn' := isPositional_iff.mpr ⟨hlarge, hinside⟩
      have hdigits : shownDigits n = 12 := by rw [shownDigits, hn']; rfl
      rw [hdigits] at h
      have hbelow := h.le_ten_sub (by decide) hpos hinside fun heq => hupper ⟨hinside, heq⟩
      have hm'' : m < positionalBelow :=
        hm.lt_of_lt_middle (lt_of_le_of_lt (by linarith) lt_middle_positionalBelow)
      rw [hn', isPositional, decide_eq_true hm', decide_eq_true hm'', Bool.true_and]
    · have hn' := isPositional_of_le habove
      have hm'' := positionalBelow_le_of_around hm (h.ten_le (shownDigits_pos n) hpos habove)
      rw [hn', isPositional, decide_eq_false (Nat.not_lt.mpr hm''), Bool.and_false]

theorem numeral_of_around (hn : 0 < n) (hm : Around m (shown n).value)
    (hupper : ¬ (size n < 10 ^ (10 : ℤ) ∧ (shown n).value = 10 ^ (10 : ℤ)))
    (hlower : ¬ (size n < 10 ^ (-9 : ℤ) ∧ (shown n).value = 10 ^ (-9 : ℤ))) :
    0 < m ∧ numeral m = numeral n := by
  have hrounds := isRounding_shown hn
  have hsame := isPositional_of_around hn hrounds hm hupper hlower
  have hdigits : shownDigits m = shownDigits n := by rw [shownDigits, shownDigits, hsame]
  have hfew : 1 < shownDigits n ∧ shownDigits n ≤ 15 ∧
      (shownDigits n = 10 ∨ 10 ^ (-300 : ℤ) ≤ size n) := by
    rw [shownDigits]
    split
    · rename_i hin
      exact ⟨by decide, by decide,
        Or.inr (le_trans (ten_le_ten.mpr (by decide)) (isPositional_iff.mp hin).1)⟩
    · exact ⟨by decide, by decide, Or.inl rfl⟩
  obtain ⟨hpos, hagain⟩ := isRounding_of_around hn hfew.1 hfew.2.1 hfew.2.2 hrounds hm
  rw [← hdigits] at hagain
  have hvalue := (isRounding_shown hpos).unique hagain (shownDigits_pos m) (size_pos hpos)
  have hshown := (trimmed_shown hpos).unique (trimmed_shown hn) hvalue
  refine ⟨hpos, ?_⟩
  rw [numeral, numeral, if_neg hpos.ne', if_neg hn.ne', hsame, hshown]

/-! ## The exceptions -/

theorem eq_positionalBelow_of_around (h : Around m (10 ^ (10 : ℤ))) : m = positionalBelow := by
  have hnext : size positionalBelow < size (positionalBelow + 1) := size_lt_size.mpr (by omega)
  have hle := positionalBelow_le_of_around h le_rfl
  have hlt : m < positionalBelow + 1 := by
    refine h.lt_of_lt_middle ?_
    rw [Nat.add_sub_cancel]
    rw [size_positionalBelow] at hnext ⊢
    linarith
  omega

theorem eq_positionalFrom_of_around (h : Around m (10 ^ (-9 : ℤ))) : m = positionalFrom := by
  have hself := le_size_positionalFrom
  have hnext : size positionalFrom < size (positionalFrom + 1) := size_lt_size.mpr (by omega)
  have hle := positionalFrom_le_of_around h le_rfl
  have hlt : m < positionalFrom + 1 := by
    refine h.lt_of_lt_middle ?_
    rw [Nat.add_sub_cancel]
    linarith
  omega

end

end Display

namespace Double

open Display

theorem place_le_of_lt_infinityOrdinal {n : ℕ} {place c : ℤ} (hn : 0 < n)
    (hfinite : n < infinityOrdinal) (h : RoundsTo 10 (size n) place c) : place ≤ 299 := by
  have hlow := h.le_abs
  have htop := size_infinity_le (le_refl 309)
  rw [abs_of_pos (size_pos hn)] at hlow
  rw [← zpow_natCast] at htop
  have hpowers := lt_of_le_of_lt hlow (lt_of_lt_of_le (size_lt_size.mpr hfinite) htop)
  have := ten_lt_ten.mp hpowers
  omega

/-- A value that is rounded to ten digits past the largest double is nearer to infinity. -/
theorem middle_lt_of_largest_lt {n : ℕ} {q : ℚ} (hn : 0 < n) (hfinite : n < infinityOrdinal)
    (h : IsRounding 10 (size n) q) (hq : largest < q) :
    size (infinityOrdinal - 1) + size infinityOrdinal < 2 * q := by
  obtain ⟨place, c, h, rfl⟩ := h
  obtain ⟨hlow, hmiddle⟩ := largest_bounds
  have hpos := ten_pos 299
  have hc : 1797693134 * (10 : ℚ) ^ (299 : ℤ) < c * 10 ^ place := lt_of_le_of_lt hlow hq
  have hplace := place_le_of_lt_infinityOrdinal hn hfinite h
  rcases (by omega : place + 10 ≤ 308 ∨ place = 299) with hless | rfl
  · -- What is rounded to digits that count less does not reach the largest double.
    have hpower : (10 : ℚ) ^ (308 : ℤ) = 1000000000 * 10 ^ (299 : ℤ) := by
      rw [show (308 : ℤ) = (9 : ℕ) + 299 by rfl, zpow_add₀ (by norm_num), zpow_natCast]
      norm_num
    have hbelow := le_trans (h.mul_le_high (size_pos hn)) (ten_le_ten.mpr hless)
    rw [hpower] at hbelow
    have hless := lt_of_mul_lt_mul_right (lt_of_lt_of_le hc hbelow) hpos.le
    norm_num at hless
  · have hstep : 1797693134 < c := by
      exact_mod_cast lt_of_mul_lt_mul_right hc hpos.le
    have hstep' : (1797693135 : ℚ) ≤ c := by exact_mod_cast hstep
    have hmul := mul_le_mul_of_nonneg_right hstep' hpos.le
    exact lt_of_lt_of_le hmiddle (mul_le_mul_of_nonneg_left hmul zero_le_two)

end Double

/-! ## The law -/

section

open Double Display

variable {x : Float}

theorem abs_shownValue (x : Float) : |shownValue x| = (shown (ordinal x)).value := by
  unfold shownValue
  split
  · rw [abs_neg, abs_of_nonneg (Decimal.value_nonneg _)]
  · rw [abs_of_nonneg (Decimal.value_nonneg _)]

/-- How some doubles are written, and what their numerals are read as: zero, the two thresholds, the
doubles just below them, the largest double, and the sum of 0.1 and 0.2. -/
structure WrittenNumerals : Prop where
  zero : signed false (numeral 0) = "0"
  zero_read : (numeral 0).decimal.ordinal = 0
  upper : signed false (numeral positionalBelow) = "1e+10"
  upper_minus : signed true (numeral positionalBelow) = "-1e+10"
  lower : signed false (numeral positionalFrom) = "0.000000001"
  lower_minus : signed true (numeral positionalFrom) = "-0.000000001"
  below_upper : signed false (numeral (positionalBelow - 1)) = "10000000000"
  below_upper_read : (numeral (positionalBelow - 1)).decimal.ordinal = positionalBelow
  below_lower : signed false (numeral (positionalFrom - 1)) = "1e-9"
  below_lower_read : (numeral (positionalFrom - 1)).decimal.ordinal = positionalFrom
  last : signed false (numeral (infinityOrdinal - 1)) = "1.797693135e+308"
  last_read : (numeral (infinityOrdinal - 1)).decimal.ordinal = infinityOrdinal
  three_tenths : signed false (numeral 4599075939470750516) = "0.3"

theorem written_numerals : WrittenNumerals := by
  constructor <;> decide +kernel

theorem finite_infinity (negative : Bool) :
    finite (ofOrdinal negative infinityOrdinal) = .error .notFinite := by
  cases negative <;> exact if_neg (by decide)

theorem evaluate_zero (env : Environment) : evaluate env "0" = .ok (ofOrdinal false 0) := by
  have hvalue := evaluate_signed env false (canonical_numeral 0).wellFormed
  rw [written_numerals.zero, written_numerals.zero_read, finite,
    if_pos (isFinite_ofOrdinal false (by decide))] at hvalue
  exact hvalue

theorem evaluate_display (env : Environment) (hx : x.isFinite = true) :
    evaluate env (display x) =
      finite (ofOrdinal (decide (x < 0)) (numeral (ordinal x)).decimal.ordinal) := by
  rw [display_eq_signed hx]
  exact evaluate_signed env _ (canonical_numeral _).wellFormed

theorem around_numeral {n : ℕ} (hfinite : (numeral n).decimal.ordinal < infinityOrdinal) :
    Around (numeral n).decimal.ordinal (shown n).value := by
  rw [← value_numeral]
  exact Decimal.around_ordinal hfinite

/-- A number that is not past the largest double is typed in, and shows the text of the double
around it. -/
theorem exists_evaluate_display (env : Environment) (hx : x.isFinite = true)
    (hlarge : (shown (ordinal x)).value ≤ largest) :
    ∃ m, Around m (shown (ordinal x)).value ∧ (0 < m →
      ∃ v, evaluate env (display x) = .ok v ∧ display v = signed (decide (x < 0)) (numeral m)) := by
  have hfinite : (numeral (ordinal x)).decimal.ordinal < infinityOrdinal := by
    rw [← value_numeral] at hlarge
    exact Decimal.ordinal_lt hlarge
  refine ⟨_, around_numeral hfinite, fun hpos => ⟨_, ?_, display_ofOrdinal _ hpos hfinite⟩⟩
  rw [evaluate_display env hx, finite, if_pos (isFinite_ofOrdinal _ hfinite)]

theorem exists_evaluate_display_of_forall (env : Environment) (hx : x.isFinite = true) {k : ℕ}
    {minus plain : String} (hlarge : (shown (ordinal x)).value ≤ largest)
    (honly : ∀ m, Around m (shown (ordinal x)).value → m = k) (hk : 0 < k)
    (hminus : signed true (numeral k) = minus) (hplain : signed false (numeral k) = plain) :
    ∃ v, evaluate env (display x) = .ok v ∧ display v = if x < 0 then minus else plain := by
  obtain ⟨m, haround, hback⟩ := exists_evaluate_display env hx hlarge
  rw [honly m haround] at hback
  obtain ⟨v, hvalue, htext⟩ := hback hk
  refine ⟨v, hvalue, htext.trans ?_⟩
  split
  · rename_i hsign
    rw [decide_eq_true hsign, hminus]
  · rename_i hsign
    rw [decide_eq_false hsign, hplain]

theorem evaluate_display_of_largest_lt (env : Environment) (hx : x.isFinite = true)
    (hpos : 0 < ordinal x) (hlarge : largest < (shown (ordinal x)).value) :
    evaluate env (display x) = .error .notFinite := by
  have hrounds := isRounding_shown hpos
  have hdigits : shownDigits (ordinal x) = 10 := by
    -- A value with its digits in their places is far from the largest double.
    have hout : ¬ isPositional (ordinal x) = true := by
      intro hin
      have hle := hrounds.le_ten (size_pos hpos) (isPositional_iff.mp hin).2
      have hlast := ten_le_largest
      linarith
    rw [shownDigits, if_neg hout]
    rfl
  rw [hdigits] at hrounds
  have hmiddle := middle_lt_of_largest_lt hpos (of_isFinite hx).2.2 hrounds hlarge
  have hinfinite : (numeral (ordinal x)).decimal.ordinal = infinityOrdinal := by
    refine Nat.le_antisymm (Decimal.ordinal_le _) (Nat.not_lt.mp fun hfinite => ?_)
    have hle := (around_numeral hfinite).le_of_middle_lt hmiddle
    omega
  rw [evaluate_display env hx, hinfinite, finite_infinity]

/-- A text that is shown can be typed in and shows itself again, unless rounding has reached a
threshold from below or has passed the largest double. There it is shown in the other way, or
refused. -/
theorem the_text_of_a_result_shows_itself_again (hx : x.isFinite = true) (env : Environment) :
    ∃ q : ℚ, denoted? (display x) = some q ∧
      (|q| ≤ largest → ¬ (|value x| < 10 ^ (10 : ℤ) ∧ |q| = 10 ^ (10 : ℤ)) →
        ¬ (|value x| < 10 ^ (-9 : ℤ) ∧ |q| = 10 ^ (-9 : ℤ)) →
        ∃ v, evaluate env (display x) = .ok v ∧ display v = display x) ∧
      (|value x| < 10 ^ (10 : ℤ) ∧ |q| = 10 ^ (10 : ℤ) →
        ∃ v, evaluate env (display x) = .ok v ∧
          display v = if x < 0 then "-1e+10" else "1e+10") ∧
      (|value x| < 10 ^ (-9 : ℤ) ∧ |q| = 10 ^ (-9 : ℤ) →
        ∃ v, evaluate env (display x) = .ok v ∧
          display v = if x < 0 then "-0.000000001" else "0.000000001") ∧
      (largest < |q| → evaluate env (display x) = .error .notFinite) := by
  rcases Nat.eq_zero_or_pos (ordinal x) with hzero | hpos
  · have htext := display_of_ordinal_zero hx hzero
    have hagain : display (ofOrdinal false 0) = "0" :=
      display_of_ordinal_zero (isFinite_ofOrdinal _ (by decide)) (ordinal_ofOrdinal _ (by decide))
    rw [htext]
    refine ⟨0, denoted?_zero.1, fun _ _ _ => ⟨_, evaluate_zero env, hagain⟩, ?_, ?_, ?_⟩
    · rintro ⟨-, hten⟩
      norm_num at hten
    · rintro ⟨-, hten⟩
      norm_num at hten
    · intro hlarge
      rw [abs_zero] at hlarge
      exact absurd (le_trans (ten_pos 10).le ten_le_largest) (not_le.mpr hlarge)
  · refine ⟨shownValue x, denoted?_display hx, ?_, ?_, ?_, ?_⟩
    · rw [abs_value hx, abs_shownValue]
      intro hlarge hupper hlower
      obtain ⟨m, haround, hback⟩ := exists_evaluate_display env hx hlarge
      obtain ⟨hm, hnumeral⟩ := numeral_of_around hpos haround hupper hlower
      rw [hnumeral, ← display_eq_signed hx] at hback
      exact hback hm
    · rw [abs_shownValue]
      rintro ⟨-, hten⟩
      exact exists_evaluate_display_of_forall env hx (hten ▸ ten_le_largest)
        (fun m hm => eq_positionalBelow_of_around (hten ▸ hm))
        (lt_trans positionalFrom_pos positionalFrom_lt_positionalBelow)
        written_numerals.upper_minus written_numerals.upper
    · rw [abs_shownValue]
      rintro ⟨-, hten⟩
      have hsmall : (10 : ℚ) ^ (-9 : ℤ) ≤ 10 ^ (10 : ℤ) := ten_le_ten.mpr (by decide)
      exact exists_evaluate_display_of_forall env hx (hten ▸ le_trans hsmall ten_le_largest)
        (fun m hm => eq_positionalFrom_of_around (hten ▸ hm)) positionalFrom_pos
        written_numerals.lower_minus written_numerals.lower
    · rw [abs_shownValue]
      exact evaluate_display_of_largest_lt env hx hpos

/-- The sum of 0.1 and 0.2 in doubles shows as 0.3, and so does what is typed in. -/
theorem three_tenths_show_themselves_again :
    ∃ x : Float, x.isFinite = true ∧ x = 0.1 + 0.2 ∧ display x = "0.3" ∧
      ∃ v, evaluate {} "0.3" = .ok v ∧ display v = "0.3" := by
  have hx : (0.1 + 0.2 : Float).isFinite = true := by decide
  have hsum : (0.1 + 0.2 : Float) = ofOrdinal false 4599075939470750516 := by decide
  have htext : display (0.1 + 0.2) = "0.3" := by
    rw [hsum, display_ofOrdinal false (by decide) (by decide)]
    exact written_numerals.three_tenths
  have hnumeral : Numeral.WellFormed ⟨['0'], some ['3'], none⟩ :=
    ⟨by decide, by decide, by decide, by simp⟩
  have hvalue : Numeral.value ⟨['0'], some ['3'], none⟩ = 3 / 10 := by
    have hdecimal : Numeral.decimal ⟨['0'], some ['3'], none⟩ = ⟨3, -1⟩ := by decide
    rw [Numeral.value, hdecimal, Decimal.value]
    norm_num
  have hdenoted : denoted? "0.3" = some (3 / 10) := by
    have h := denoted?_signed false hnumeral
    rw [hvalue] at h
    exact h
  obtain ⟨q, hq, hlaw, -⟩ := the_text_of_a_result_shows_itself_again hx {}
  rw [htext, hdenoted, Option.some_inj] at hq
  rw [htext, ← hq] at hlaw
  refine ⟨_, hx, rfl, htext, hlaw ?_ ?_ ?_⟩
  · refine le_trans ?_ ten_le_largest
    norm_num [abs_of_nonneg]
  · rintro ⟨-, hten⟩
    norm_num [abs_of_nonneg] at hten
  · rintro ⟨-, hten⟩
    norm_num [abs_of_nonneg] at hten

/-- A double whose numeral is read as a double with another numeral does not show itself again. -/
theorem not_exists_evaluate_display {n k : ℕ} {shownText readText : String}
    (hn : 0 < n) (hn' : n < infinityOrdinal) (hk : 0 < k) (hk' : k < infinityOrdinal)
    (hread : (numeral n).decimal.ordinal = k) (hshown : signed false (numeral n) = shownText)
    (hagain : signed false (numeral k) = readText) (hne : readText ≠ shownText) :
    display (ofOrdinal false n) = shownText ∧
      ¬ ∃ v, evaluate {} shownText = .ok v ∧ display v = shownText := by
  have htext := display_ofOrdinal false hn hn'
  have hvalue := evaluate_signed {} false (canonical_numeral n).wellFormed
  have htext' := display_ofOrdinal false hk hk'
  rw [hshown] at htext hvalue
  rw [hread, finite, if_pos (isFinite_ofOrdinal false hk')] at hvalue
  rw [hagain] at htext'
  refine ⟨htext, ?_⟩
  rintro ⟨v, hv, hsame⟩
  rw [hvalue, Except.ok.injEq] at hv
  rw [← hv, htext'] at hsame
  exact hne hsame

/-- The doubles just below the two thresholds are rounded up to them and come back in the other way,
and the text of the largest double is refused. -/
theorem some_results_do_not_show_themselves_again :
    ((ofOrdinal false (positionalBelow - 1)).isFinite = true ∧
      display (ofOrdinal false (positionalBelow - 1)) = "10000000000" ∧
      ¬ ∃ v, evaluate {} "10000000000" = .ok v ∧ display v = "10000000000") ∧
    ((ofOrdinal false (positionalFrom - 1)).isFinite = true ∧
      display (ofOrdinal false (positionalFrom - 1)) = "1e-9" ∧
      ¬ ∃ v, evaluate {} "1e-9" = .ok v ∧ display v = "1e-9") ∧
    ((ofOrdinal false (infinityOrdinal - 1)).isFinite = true ∧
      display (ofOrdinal false (infinityOrdinal - 1)) = "1.797693135e+308" ∧
      ¬ ∃ v, evaluate {} "1.797693135e+308" = .ok v) := by
  have hfirst : 0 < positionalFrom - 1 := by
    rw [threshold_units.lower]
    decide
  have horder := positionalFrom_lt_positionalBelow
  have hlast := positionalBelow_lt_infinityOrdinal
  refine ⟨⟨isFinite_ofOrdinal false (by omega), ?_⟩, ⟨isFinite_ofOrdinal false (by omega), ?_⟩,
    isFinite_ofOrdinal false (by decide), ?_, ?_⟩
  · exact not_exists_evaluate_display (by omega) (by omega) (by omega) hlast
      written_numerals.below_upper_read written_numerals.below_upper written_numerals.upper
      (by decide)
  · exact not_exists_evaluate_display hfirst (by omega) (by omega) (by omega)
      written_numerals.below_lower_read written_numerals.below_lower written_numerals.lower
      (by decide)
  · rw [display_ofOrdinal false (by decide) (by decide), written_numerals.last]
  · rintro ⟨v, hvalue⟩
    have hrefused := evaluate_signed {} false (canonical_numeral (infinityOrdinal - 1)).wellFormed
    rw [written_numerals.last, written_numerals.last_read, finite_infinity, hvalue] at hrefused
    cases hrefused

end

end Calculator
