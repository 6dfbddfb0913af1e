-- A numeral reads as the double nearest to its exact value. So the text of a
-- number token, which the lexer always takes from a numeral, is never refused.
import Calculator.Double.Text
import Calculator.Proofs.NumeralScan

namespace Calculator

namespace Numeral

variable {n : Numeral}

theorem exists_text_eq_cons (hn : n.WellFormed) :
    ∃ c cs, n.text = c :: cs ∧ (c.isDigit = true ∨ c = '.') := by
  have hmantissa : ∃ c cs, n.mantissaText = c :: cs ∧ (c.isDigit = true ∨ c = '.') := by
    cases hw : n.whole with
    | cons c cs =>
      have hc : c.isDigit = true := hn.whole c (by rw [hw]; exact List.mem_cons_self)
      cases hf : n.fraction with
      | none => exact ⟨c, cs, by simp [mantissaText, hf, hw], Or.inl hc⟩
      | some fraction => exact ⟨c, cs ++ '.' :: fraction, by simp [mantissaText, hf, hw], Or.inl hc⟩
    | nil =>
      cases hf : n.fraction with
      | none => exact absurd (by simp [hw, hf]) hn.ne_nil
      | some fraction => exact ⟨'.', fraction, by simp [mantissaText, hf, hw], Or.inr rfl⟩
  obtain ⟨c, cs, hcs, hc⟩ := hmantissa
  cases he : n.exponent with
  | none => exact ⟨c, cs, by rw [text, he, hcs], hc⟩
  | some e => exact ⟨c, cs ++ e.text, by simp [text, he, hcs], hc⟩

theorem ne_of_first {c d : Char} (hc : c.isDigit = true ∨ c = '.') (hd : d.isDigit = false)
    (hpoint : d ≠ '.') : c ≠ d := by
  rintro rfl
  rcases hc with hc | hc
  · rw [hc] at hd; cases hd
  · exact hpoint hc

end Numeral

namespace Double

open Numeral

theorem toLower_of_isDigit {c : Char} (h : c.isDigit = true) : c.toLower = c := by
  have hupper : ¬ ('A'.val ≤ c.val ∧ c.val ≤ 'Z'.val) := by
    simp only [Char.isDigit, Bool.and_eq_true, decide_eq_true_eq, UInt32.le_iff_toNat_le,
      ge_iff_le] at h ⊢
    grind
  simp only [Char.toLower, ge_iff_le, dif_neg hupper]

/-- The text of a numeral is no sign and no word, and it stands for the nearest double. -/
theorem ofText?_text {n : Numeral} (hn : n.WellFormed) :
    ofText? (String.ofList n.text) = some (ofOrdinal false n.decimal.ordinal) := by
  obtain ⟨c, cs, hcs, hc⟩ := exists_text_eq_cons hn
  have hscan : Numeral.scan (c :: cs) = some (n, []) := by
    have := scan_append hn (stopsAt_nil : StopsAt joins [])
    rwa [List.append_nil, hcs] at this
  have hplus : c ≠ '+' := ne_of_first hc rfl (by decide)
  have hminus : c ≠ '-' := ne_of_first hc rfl (by decide)
  have hn : c ≠ 'n' := ne_of_first hc rfl (by decide)
  have hi : c ≠ 'i' := ne_of_first hc rfl (by decide)
  have hlower : c.toLower = c := by
    rcases hc with hc | rfl
    · exact toLower_of_isDigit hc
    · rfl
  simp [ofText?, hcs, scanSign, hplus, hminus, hlower, hn, hi, hscan]

end Double

end Calculator
