-- Numerals with nothing to leave out. A decimal with no zero at its end is spelled
-- with its digits in their places, or with one digit before the point and an
-- exponent. Neither spelling has an idle digit, and both keep the exact value.
import Mathlib
import Calculator.Proofs.NumberText
import Calculator.Proofs.ShortestText
import Calculator.Proofs.SignificantDigits

namespace Calculator

namespace Decimal

/-! ## Digits -/

theorem ne_zero_of_digit {n : ℕ} (hn : n ≠ 0) (hten : n < 10) : Nat.digitChar n ≠ '0' := by
  interval_cases n
  · exact absurd rfl hn
  all_goals decide

theorem length_digits (n : ℕ) : (digits n).length = digitCount n := by
  fun_induction digitCount n with
  | case1 n h => rw [digits, Nat.toDigits_of_lt_base h, List.length_singleton]
  | case2 n h ih =>
    rw [digits, Nat.toDigits_of_base_le (by decide) (by omega), List.length_append, ← digits, ih,
      List.length_singleton]

theorem head?_digits {n : ℕ} (hn : n ≠ 0) : (digits n).head? ≠ some '0' := by
  fun_induction digitCount n with
  | case1 n h =>
    rw [digits, Nat.toDigits_of_lt_base h, List.head?_cons, ne_eq, Option.some_inj]
    exact ne_zero_of_digit hn h
  | case2 n h ih =>
    have hne : digits (n / 10) ≠ [] := Nat.toDigits_ne_nil
    rw [digits, Nat.toDigits_of_base_le (by decide) (by omega), ← digits,
      List.head?_append_of_ne_nil _ hne]
    exact ih (by omega)

theorem getLast?_digits {n : ℕ} (hn : n % 10 ≠ 0) : (digits n).getLast? ≠ some '0' := by
  have hlast : (digits n).getLast? = some (Nat.digitChar (n % 10)) := by
    rw [digits]
    rcases Nat.lt_or_ge n 10 with h | h
    · rw [Nat.toDigits_of_lt_base h, Nat.mod_eq_of_lt h, List.getLast?_singleton]
    · rw [Nat.toDigits_of_base_le (by decide) h, List.getLast?_concat]
  rw [hlast, ne_eq, Option.some_inj]
  exact ne_zero_of_digit hn (Nat.mod_lt n (by decide))

end Decimal

/-! ## Numerals with no idle digit -/

namespace Numeral

/-- The exact value of a numeral. -/
def value (n : Numeral) : ℚ := n.decimal.value

/-- A numeral that has nothing to leave out. -/
structure Canonical (n : Numeral) : Prop where
  wellFormed : n.WellFormed
  whole_ne_nil : n.whole ≠ []
  /-- A zero in front of the point stands alone. -/
  whole_head : n.whole.head? = some '0' → n.whole = ['0']
  /-- A point has digits after it. -/
  fraction_ne_nil : n.fraction ≠ some []
  /-- The last digit after the point is not zero. -/
  fraction_last : ∀ ds, n.fraction = some ds → ds.getLast? ≠ some '0'

/-- A numeral with one digit from 1 to 9 before the point, and an exponent with its sign and no
digit to leave out. -/
structure Scientific (n : Numeral) : Prop where
  whole : ∃ c, n.whole = [c] ∧ c ≠ '0'
  exponent : ∃ sign ds, n.exponent = some ⟨'e', some sign, ds⟩ ∧ ds.head? ≠ some '0'

end Numeral

namespace Decimal

variable {d : Decimal}

/-! ## All digits in their places -/

theorem canonical_positionalNumeral (h : d.Trimmed) : d.positionalNumeral.Canonical := by
  have hwellFormed := d.wellFormed_positionalNumeral
  have hne : digits d.coefficient ≠ [] := Nat.toDigits_ne_nil
  have hnonzero : d.coefficient ≠ 0 := by
    unfold Trimmed at h
    omega
  have hhead := head?_digits hnonzero
  have hlast := getLast?_digits h
  have hzero : ∀ ds : List Char, ds.head? ≠ some '0' → ds.head? = some '0' → ds = ['0'] :=
    fun ds hds hds' => absurd hds' hds
  unfold positionalNumeral at hwellFormed ⊢
  cases hx : d.exponent with
  | ofNat e =>
    simp only [hx] at hwellFormed ⊢
    refine ⟨hwellFormed, by simp [hne], hzero _ ?_, by simp, by simp⟩
    rwa [List.head?_append_of_ne_nil _ hne]
  | negSucc e =>
    simp only [hx] at hwellFormed ⊢
    split
    · rename_i hlt
      rw [if_pos hlt] at hwellFormed
      have htake : (digits d.coefficient).length - (e + 1) ≠ 0 := by omega
      refine ⟨hwellFormed, ?_, hzero _ ?_, ?_, ?_⟩
      · rw [ne_eq, List.take_eq_nil_iff]
        exact fun hnil => hnil.elim htake hne
      · rwa [List.head?_take, if_neg htake]
      · rw [ne_eq, Option.some_inj, List.drop_eq_nil_iff]
        omega
      · rintro ds hds
        cases hds
        rwa [List.getLast?_drop, if_neg (by omega)]
    · rename_i hle
      rw [if_neg hle] at hwellFormed
      refine ⟨hwellFormed, by simp, by simp, by simp [hne], ?_⟩
      rintro ds hds
      cases hds
      rwa [List.getLast?_append_of_ne_nil _ hne]

theorem exponent_positionalNumeral (d : Decimal) : d.positionalNumeral.exponent = none := by
  unfold positionalNumeral
  split
  · rfl
  · simp only
    split <;> rfl

theorem value_positionalNumeral {j : ℕ} (h : d.exponent = (j : ℤ) - 1074) :
    d.positionalNumeral.value = d.value := by
  obtain ⟨i, hexponent, hsame⟩ := d.decimal_positionalNumeral h
  have hsame' :
      (d.positionalNumeral.decimal.coefficient : ℚ) * 10 ^ i = d.coefficient * 10 ^ j := by
    exact_mod_cast hsame
  rw [Numeral.value, value, value, hexponent, h, zpow_sub₀ (by norm_num), zpow_sub₀ (by norm_num),
    zpow_natCast, zpow_natCast, mul_div_assoc', mul_div_assoc', hsame']

theorem value_significant_zero (digits : ℕ) (e : ℤ) :
    ((⟨0, e⟩ : Decimal).significant digits).value = 0 := by
  simp [significant, divideToEven, value]

/-! ## One digit and an exponent -/

/-- The exponent of the first digit of a decimal. -/
def leadingExponent (d : Decimal) : ℤ :=
  d.exponent + ((digits d.coefficient).length - 1 : ℕ)

/-- The numeral that writes a decimal with an exponent. -/
def scientificNumeral (d : Decimal) : Numeral :=
  let ds := digits d.coefficient
  { whole := ds.take 1
    fraction := if ds.length = 1 then none else some (ds.drop 1)
    exponent := some ⟨'e', some (if d.leadingExponent < 0 then '-' else '+'),
      digits d.leadingExponent.natAbs⟩ }

theorem text_scientificNumeral (d : Decimal) : d.scientificNumeral.text = d.scientific := by
  unfold scientificNumeral scientific leadingExponent
  simp only [Numeral.text, Numeral.mantissaText, Numeral.Exponent.text]
  by_cases hone : (digits d.coefficient).length = 1
  · simp [hone]
  · simp [hone]

theorem wellFormed_scientificNumeral (d : Decimal) : d.scientificNumeral.WellFormed := by
  have hdigits := isDigits_digits d.coefficient
  have hne : digits d.coefficient ≠ [] := Nat.toDigits_ne_nil
  refine ⟨fun c hc => hdigits c (List.mem_of_mem_take hc), ?_, by simp [scientificNumeral, hne], ?_⟩
  · intro c hc
    simp only [scientificNumeral] at hc
    split at hc
    · cases hc
    · exact hdigits c (List.mem_of_mem_drop hc)
  · rintro e he
    cases he
    refine ⟨Or.inl rfl, ?_, isDigits_digits _, Nat.toDigits_ne_nil⟩
    rintro c hc
    cases hc
    split
    · exact Or.inr rfl
    · exact Or.inl rfl

theorem canonical_scientificNumeral (h : d.Trimmed) : d.scientificNumeral.Canonical := by
  have hne : digits d.coefficient ≠ [] := Nat.toDigits_ne_nil
  have hnonzero : d.coefficient ≠ 0 := by
    unfold Trimmed at h
    omega
  have hhead := head?_digits hnonzero
  have hlast := getLast?_digits h
  refine ⟨d.wellFormed_scientificNumeral, ?_, ?_, ?_, ?_⟩
  · simp [scientificNumeral, hne]
  · intro hzero
    rw [scientificNumeral, List.head?_take, if_neg (by decide)] at hzero
    exact absurd hzero hhead
  · have hpos := List.length_pos_iff.mpr hne
    simp only [scientificNumeral]
    split
    · simp
    · rw [ne_eq, Option.some_inj, List.drop_eq_nil_iff]
      omega
  · intro ds hds
    have hpos := List.length_pos_iff.mpr hne
    simp only [scientificNumeral] at hds
    split at hds
    · cases hds
    · cases hds
      rwa [List.getLast?_drop, if_neg (by omega)]

theorem scientific_scientificNumeral (h : d.coefficient ≠ 0) (hexponent : d.leadingExponent ≠ 0) :
    d.scientificNumeral.Scientific := by
  refine ⟨?_, _, _, rfl, head?_digits (by omega)⟩
  have hhead := head?_digits h
  cases hds : digits d.coefficient with
  | nil => exact absurd hds Nat.toDigits_ne_nil
  | cons c cs =>
    rw [hds, List.head?_cons, ne_eq, Option.some_inj] at hhead
    exact ⟨c, by simp [scientificNumeral, hds], hhead⟩

theorem value_scientificNumeral (d : Decimal) : d.scientificNumeral.value = d.value := by
  have hpos := List.length_pos_iff.mpr (Nat.toDigits_ne_nil : digits d.coefficient ≠ [])
  have hexponent : (Numeral.Exponent.mk 'e' (some (if d.leadingExponent < 0 then '-' else '+'))
      (digits d.leadingExponent.natAbs)).value = d.leadingExponent := by
    rw [Numeral.Exponent.value, ofDigits_digits]
    by_cases hsign : d.leadingExponent < 0
    · rw [if_pos hsign, if_pos rfl]
      omega
    · rw [if_neg hsign, if_neg (by simp)]
      omega
  have hsame : d.scientificNumeral.decimal = d := by
    obtain ⟨c, e⟩ := d
    simp only [scientificNumeral, Numeral.decimal, Option.map_some, Option.getD_some] at hexponent ⊢
    rw [hexponent]
    split
    · rename_i hone
      rw [Option.getD_none, List.append_nil, List.take_of_length_le (by omega), ofDigits_digits]
      simp [leadingExponent, hone]
    · rw [Option.getD_some, List.take_append_drop, ofDigits_digits, List.length_drop]
      simp [leadingExponent]
  rw [Numeral.value, hsame]

/-- The exponent of the first digit tells between which powers of ten the value lies. -/
theorem leadingExponent_bounds (h : d.coefficient ≠ 0) :
    10 ^ d.leadingExponent ≤ d.value ∧ d.value < 10 ^ (d.leadingExponent + 1) := by
  have hcount := digitCount_pos d.coefficient
  have hleading : d.leadingExponent = d.exponent + digitCount d.coefficient - 1 := by
    rw [leadingExponent, length_digits]
    omega
  rw [hleading, sub_add_cancel]
  exact value_bounds h

end Decimal

/-! ## The text as an exact number -/

/-- The exact number that a text stands for, if it is a numeral with or without a sign. -/
def denoted? (text : String) : Option ℚ :=
  let (sign, unsigned) := Numeral.scanSign text.toList
  match Numeral.scan unsigned with
  | some (n, []) => some (if sign = some '-' then -n.value else n.value)
  | _ => none

/-- A numeral with a minus sign in front or none. -/
def signed (negative : Bool) (n : Numeral) : String :=
  String.ofList ((if negative then ['-'] else []) ++ n.text)

theorem denoted?_signed (negative : Bool) {n : Numeral} (hn : n.WellFormed) :
    denoted? (signed negative n) = some (if negative then -n.value else n.value) := by
  have hscan : Numeral.scan n.text = some (n, []) := by
    have := Numeral.scan_append hn (stopsAt_nil : StopsAt Numeral.joins [])
    rwa [List.append_nil] at this
  obtain ⟨c, cs, hcs, hc⟩ := Numeral.exists_text_eq_cons hn
  have hplus : c ≠ '+' := Numeral.ne_of_first hc rfl (by decide)
  have hminus : c ≠ '-' := Numeral.ne_of_first hc rfl (by decide)
  rw [hcs] at hscan
  cases negative with
  | false => simp [denoted?, signed, hcs, Numeral.scanSign, hplus, hminus, hscan]
  | true => simp [denoted?, signed, hcs, Numeral.scanSign, hscan]

end Calculator
