-- The text of a finite double reads back as the double. The shortest decimal
-- lies in the reach of the double, and its digits, written in their places,
-- make a numeral of the same value.
import Calculator.Double.Text
import Calculator.Proofs.NearestDouble
import Calculator.Proofs.NumeralScan

namespace Calculator

namespace Double

/-! ## The shortest decimal lies in the reach -/

section

variable {r : Reach} {exact : Nat}

theorem gridPoint?_holds {step c : Nat} (h : gridPoint? r exact step = some c) :
    r.holds (c * step) = true := by
  unfold gridPoint? at h
  simp only at h
  split at h
  · rename_i hbelow
    split at h
    · rename_i habove
      cases h
      exact (Bool.and_eq_true_iff.mp habove).1
    · cases h
      exact hbelow
  · split at h
    · rename_i habove
      cases h
      exact habove
    · cases h

theorem coarsest_holds (hexact : r.holds exact = true) (k : Nat) :
    ∃ j : Nat, (coarsest r exact k).exponent = (j : Int) - 1074 ∧
      r.holds ((coarsest r exact k).coefficient * 10 ^ j) = true := by
  induction k with
  | zero => exact ⟨0, rfl, by simpa [coarsest] using hexact⟩
  | succ k ih =>
    unfold coarsest
    split
    · rename_i c hc
      exact ⟨k + 1, rfl, gridPoint?_holds hc⟩
    · exact ih

end

theorem holds_self (n : Nat) : (reach n).holds (atoms n) = true := by
  have hbefore := atoms_le_atoms (Nat.sub_le n 1)
  have hafter : atoms n < atoms (n + 1) :=
    Nat.mul_lt_mul_of_pos_right (units_lt_succ n) (five_pow_pos 1074)
  rw [holds_iff]
  simp only [reach]
  refine ⟨by omega, by omega, ?_⟩
  rintro (hend | hend)
  · -- Only zero is its own neighbour below.
    by_cases hzero : n = 0
    · rw [hzero]
      rfl
    · have hbelow : atoms (n - 1) < atoms n :=
        Nat.mul_lt_mul_of_pos_right (units_lt_units (by omega)) (five_pow_pos 1074)
      omega
  · omega

end Double

/-! ## Digits in their places -/

namespace Decimal

/-- The numeral that writes a decimal with its digits in their places. -/
def positionalNumeral (d : Decimal) : Numeral :=
  let ds := digits d.coefficient
  match d.exponent with
  | .ofNat e => ⟨ds ++ List.replicate e '0', none, none⟩
  | .negSucc e =>
    let places := e + 1
    if places < ds.length then
      ⟨ds.take (ds.length - places), some (ds.drop (ds.length - places)), none⟩
    else ⟨['0'], some (List.replicate (places - ds.length) '0' ++ ds), none⟩

theorem text_positionalNumeral (d : Decimal) : d.positionalNumeral.text = d.positional := by
  unfold positionalNumeral positional
  cases d.exponent with
  | ofNat e => rfl
  | negSucc e =>
    simp only
    split <;> rfl

theorem isDigits_digits (n : Nat) : Numeral.IsDigits (digits n) :=
  fun _ hc => Nat.isDigit_of_mem_toDigits (by decide) (by decide) hc

theorem isDigits_replicate (k : Nat) : Numeral.IsDigits (List.replicate k '0') := by
  intro c hc
  rw [List.eq_of_mem_replicate hc]
  rfl

theorem wellFormed_positionalNumeral (d : Decimal) : d.positionalNumeral.WellFormed := by
  have hdigits := isDigits_digits d.coefficient
  have hne : digits d.coefficient ≠ [] := Nat.toDigits_ne_nil
  unfold positionalNumeral
  cases d.exponent with
  | ofNat e =>
    exact ⟨hdigits.append (isDigits_replicate e), by simp [Numeral.IsDigits], by simp [hne],
      by simp⟩
  | negSucc e =>
    simp only
    split
    · refine ⟨fun c hc => hdigits c (List.mem_of_mem_take hc),
        fun c hc => hdigits c (List.mem_of_mem_drop hc), ?_, by simp⟩
      simpa using hne
    · exact ⟨isDigits_replicate 1, (isDigits_replicate _).append hdigits, by simp, by simp⟩

theorem ofDigits_digits (n : Nat) : Numeral.ofDigits (digits n) = n :=
  Nat.ofDigitChars_ten_toDigits

theorem ofDigits_zeros (k : Nat) (ds : List Char) :
    Numeral.ofDigits (List.replicate k '0' ++ ds) = Numeral.ofDigits ds := by
  rw [Numeral.ofDigits, Nat.ofDigitChars_append, Nat.ofDigitChars_replicate_zero, Nat.mul_zero]
  rfl

theorem ofDigits_append_zeros (k : Nat) (ds : List Char) :
    Numeral.ofDigits (ds ++ List.replicate k '0') = Numeral.ofDigits ds * 10 ^ k := by
  rw [Numeral.ofDigits, Nat.ofDigitChars_append, Nat.ofDigitChars_replicate_zero, Nat.mul_comm]
  rfl

theorem decimal_positionalNumeral (d : Decimal) {j : Nat} (h : d.exponent = (j : Int) - 1074) :
    ∃ i : Nat, d.positionalNumeral.decimal.exponent = (i : Int) - 1074 ∧
      d.positionalNumeral.decimal.coefficient * 10 ^ i = d.coefficient * 10 ^ j := by
  unfold positionalNumeral
  cases hx : d.exponent with
  | ofNat e =>
    have hj : j = e + 1074 := by
      rw [hx, Int.ofNat_eq_natCast] at h
      omega
    refine ⟨1074, rfl, ?_⟩
    simp only [Numeral.decimal, Option.getD_none, List.append_nil, ofDigits_append_zeros,
      ofDigits_digits]
    rw [hj, Nat.pow_add, Nat.mul_assoc]
  | negSucc e =>
    rw [hx] at h
    simp only
    split
    · rename_i hlt
      refine ⟨j, ?_, ?_⟩
      · simp only [Numeral.decimal, Option.getD_some, Option.map_none, Option.getD_none,
          List.length_drop]
        omega
      · simp only [Numeral.decimal, Option.getD_some, List.take_append_drop, ofDigits_digits]
    · rename_i hle
      refine ⟨j, ?_, ?_⟩
      · simp only [Numeral.decimal, Option.getD_some, Option.map_none, Option.getD_none,
          List.length_append, List.length_replicate]
        omega
      · have hzero : ['0'] = List.replicate 1 '0' := rfl
        simp only [Numeral.decimal, Option.getD_some]
        rw [hzero, ofDigits_zeros, ofDigits_zeros, ofDigits_digits]

end Decimal

namespace Double

theorem ordinalText_reads_back {n : Nat} (h : n < infinityOrdinal) :
    ∃ m : Numeral, m.WellFormed ∧ m.text = ordinalText n ∧ m.decimal.ordinal = n := by
  unfold ordinalText
  by_cases hzero : n = 0
  · subst hzero
    refine ⟨⟨['0'], none, none⟩, ?_, rfl, rfl⟩
    exact ⟨by decide, by decide, by decide, by simp⟩
  · rw [if_neg hzero]
    have hpos := Nat.pos_of_ne_zero hzero
    obtain ⟨j, hexponent, hholds⟩ := coarsest_holds (holds_self n) ((atoms (n + 1)).log2 / 3 + 1)
    obtain ⟨i, hexponent', hvalue⟩ := (shortest n).decimal_positionalNumeral hexponent
    refine ⟨(shortest n).positionalNumeral, (shortest n).wellFormed_positionalNumeral,
      (shortest n).text_positionalNumeral, ?_⟩
    refine Decimal.ordinal_eq hpos h hexponent' ?_
    rw [hvalue]
    exact hholds

end Double

end Calculator
