-- Which texts are plain already: the printable ASCII characters are their own
-- plain form, and so is every numeral and every row of letters. And no blank is
-- left in plain text.
import Calculator.Glyph
import Calculator.Proofs.NumeralScan

namespace Calculator

/-! ## Plain rows of characters -/

/-- A row of characters that are their own plain form. -/
def IsPlain (cs : List Char) : Prop := ∀ c ∈ cs, plainGlyph c = [c]

instance (cs : List Char) : Decidable (IsPlain cs) :=
  List.decidableBAll _ _

theorem isPlain_nil : IsPlain [] := by
  intro c hc
  cases hc

theorem isPlain_cons {c : Char} {cs : List Char} (hc : plainGlyph c = [c]) (h : IsPlain cs) :
    IsPlain (c :: cs) := by
  rintro d (_ | ⟨_, hd⟩)
  · exact hc
  · exact h d hd

theorem IsPlain.head {c : Char} {cs : List Char} (h : IsPlain (c :: cs)) : plainGlyph c = [c] :=
  h c List.mem_cons_self

theorem IsPlain.tail {c : Char} {cs : List Char} (h : IsPlain (c :: cs)) : IsPlain cs :=
  fun d hd => h d (List.mem_cons_of_mem c hd)

theorem IsPlain.append {cs ds : List Char} (h : IsPlain cs) (h' : IsPlain ds) :
    IsPlain (cs ++ ds) := by
  intro c hc
  rcases List.mem_append.mp hc with hc | hc
  · exact h c hc
  · exact h' c hc

theorem IsPlain.flatMap_eq {cs : List Char} (h : IsPlain cs) : cs.flatMap plainGlyph = cs := by
  induction cs with
  | nil => rfl
  | cons c cs ih => rw [List.flatMap_cons, h.head, ih h.tail, List.singleton_append]

/-! ## Plain characters -/

theorem isBlank_eq_false {c : Char} (h : 0x21 ≤ c.toNat) (h' : c.toNat ≤ 0x7E) :
    isBlank c = false := by
  simp only [isBlank, blankRanges, List.any_cons, List.any_nil, Bool.or_false,
    Bool.or_eq_false_iff, Bool.and_eq_false_iff, decide_eq_false_iff_not]
  omega

theorem plainGlyph_eq {c : Char} (h : 0x21 ≤ c.toNat) (h' : c.toNat ≤ 0x7E) :
    plainGlyph c = [c] := by
  have hne : ∀ d : Char, 0x7E < d.toNat → c ≠ d := by
    rintro d hd rfl
    omega
  simp [plainGlyph, isBlank_eq_false h h', hne '×' (by decide), hne '÷' (by decide),
    hne '−' (by decide), hne 'π' (by decide)]

theorem plainGlyph_of_isDigit {c : Char} (h : c.isDigit = true) : plainGlyph c = [c] := by
  simp only [Char.isDigit, Bool.and_eq_true, decide_eq_true_eq, UInt32.le_iff_toNat_le,
    ge_iff_le] at h
  apply plainGlyph_eq
  · exact Nat.le_trans (by decide) h.1
  · exact Nat.le_trans h.2 (by decide)

theorem plainGlyph_of_isAlpha {c : Char} (h : c.isAlpha = true) : plainGlyph c = [c] := by
  simp only [Char.isAlpha, Char.isUpper, Char.isLower, Bool.or_eq_true,
    Bool.and_eq_true, decide_eq_true_eq, UInt32.le_iff_toNat_le, ge_iff_le] at h
  apply plainGlyph_eq
  · rcases h with h | h
    · exact Nat.le_trans (by decide) h.1
    · exact Nat.le_trans (by decide) h.1
  · rcases h with h | h
    · exact Nat.le_trans h.2 (by decide)
    · exact Nat.le_trans h.2 (by decide)

theorem plainGlyph_of_isBlank {b : Char} (h : isBlank b = true) : plainGlyph b = [] := by
  have hne : ∀ d : Char, isBlank d = false → b ≠ d := by
    rintro d hd rfl
    rw [h] at hd
    cases hd
  simp [plainGlyph, h, hne '×' (by decide), hne '÷' (by decide), hne '−' (by decide),
    hne 'π' (by decide)]

theorem not_isBlank_of_mem_plainGlyph {b c : Char} (h : c ∈ plainGlyph b) : isBlank c = false := by
  have hsign : ∀ d : Char, 0x21 ≤ d.toNat → d.toNat ≤ 0x7E → c = d → isBlank c = false := by
    rintro d hlow hhigh rfl
    exact isBlank_eq_false hlow hhigh
  by_cases hblank : isBlank b = true
  · rw [plainGlyph_of_isBlank hblank] at h
    cases h
  · unfold plainGlyph at h
    split_ifs at h
    · exact hsign '*' (by decide) (by decide) (List.mem_singleton.mp h)
    · exact hsign '/' (by decide) (by decide) (List.mem_singleton.mp h)
    · exact hsign '-' (by decide) (by decide) (List.mem_singleton.mp h)
    · rcases List.mem_pair.mp h with hc | hc
      · exact hsign 'P' (by decide) (by decide) hc
      · exact hsign 'I' (by decide) (by decide) hc
    · rw [List.mem_singleton.mp h]
      simpa using hblank

theorem not_isBlank_of_mem_plain {text : String} {c : Char} (h : c ∈ (plain text).toList) :
    isBlank c = false := by
  rw [toList_plain] at h
  obtain ⟨b, -, hc⟩ := List.mem_flatMap.mp h
  exact not_isBlank_of_mem_plainGlyph hc

theorem Numeral.isPlain_text {n : Numeral} (hn : n.WellFormed) : IsPlain n.text := by
  have hpunctuation : IsPlain punctuation := by decide
  intro c hc
  rcases mem_text hn c hc with h | h
  · exact plainGlyph_of_isDigit h
  · exact hpunctuation c h

end Calculator
