-- The laws of the numeral scanner: it gives back every numeral whole, it takes
-- the longest one, what it gives is always a numeral, and a text that no numeral
-- can go on into does not change what it finds before.
import Mathlib
import Calculator.Numeral

namespace Calculator

/-! ## Where a row of characters ends -/

section Stops

variable {α : Type} {p : α → Bool} {xs ys : List α}

/-- A list that does not go on with a member of the class `p`. -/
def StopsAt (p : α → Bool) (xs : List α) : Prop := ∀ x ∈ xs.head?, p x = false

theorem stopsAt_nil : StopsAt p ([] : List α) := by
  intro x hx
  cases hx

theorem stopsAt_cons {x : α} (h : p x = false) : StopsAt p (x :: xs) := by
  intro y hy
  simp only [List.head?_cons, Option.mem_def, Option.some.injEq] at hy
  subst hy
  exact h

theorem StopsAt.head {x : α} (h : StopsAt p (x :: xs)) : p x = false :=
  h x (by simp)

theorem stopsAt_dropWhile : StopsAt p (xs.dropWhile p) := by
  induction xs with
  | nil => exact stopsAt_nil
  | cons x xs ih =>
    rw [List.dropWhile_cons]
    split
    · exact ih
    · rename_i hx
      exact stopsAt_cons (by simpa using hx)

/-- A longer class stops sooner. -/
theorem StopsAt.mono {q : α → Bool} (h : StopsAt q xs) (hpq : ∀ x, p x = true → q x = true) :
    StopsAt p xs := by
  intro x hx
  have hq := h x hx
  cases hp : p x with
  | false => rfl
  | true => rw [hpq x hp] at hq; cases hq

theorem StopsAt.takeWhile_eq (h : StopsAt p xs) : xs.takeWhile p = [] := by
  cases xs with
  | nil => rfl
  | cons x xs => simp [h.head]

theorem StopsAt.dropWhile_eq (h : StopsAt p xs) : xs.dropWhile p = xs := by
  cases xs with
  | nil => rfl
  | cons x xs => simp [h.head]

theorem StopsAt.takeWhile_append (h : StopsAt p ys) :
    (xs ++ ys).takeWhile p = xs.takeWhile p := by
  induction xs with
  | nil => simpa using h.takeWhile_eq
  | cons x xs ih => simp only [List.cons_append, List.takeWhile_cons, ih]

theorem StopsAt.dropWhile_append (h : StopsAt p ys) :
    (xs ++ ys).dropWhile p = xs.dropWhile p ++ ys := by
  induction xs with
  | nil => simpa using h.dropWhile_eq
  | cons x xs ih =>
    simp only [List.cons_append, List.dropWhile_cons, ih]
    split <;> rfl

/-- A row of the class in front of a list that stops it is taken whole. -/
theorem StopsAt.takeWhile_row (h : StopsAt p ys) (hxs : ∀ x ∈ xs, p x = true) :
    (xs ++ ys).takeWhile p = xs := by
  rw [List.takeWhile_append_of_pos hxs, h.takeWhile_eq, List.append_nil]

theorem StopsAt.dropWhile_row (h : StopsAt p ys) (hxs : ∀ x ∈ xs, p x = true) :
    (xs ++ ys).dropWhile p = ys := by
  rw [List.dropWhile_append_of_pos hxs, h.dropWhile_eq]

end Stops

namespace Numeral

theorem IsDigits.append {ds es : List Char} (hds : IsDigits ds) (hes : IsDigits es) :
    IsDigits (ds ++ es) := by
  intro c hc
  rcases List.mem_append.mp hc with hc | hc
  · exact hds c hc
  · exact hes c hc

/-! ## The characters of a numeral -/

/-- The characters of a numeral that are no digits. -/
def punctuation : List Char := ['.', 'e', 'E', '+', '-']

theorem mem_text {n : Numeral} (hn : n.WellFormed) :
    ∀ c ∈ n.text, c.isDigit = true ∨ c ∈ punctuation := by
  have hmantissa : ∀ c ∈ n.mantissaText, c.isDigit = true ∨ c ∈ punctuation := by
    intro c hc
    cases hf : n.fraction with
    | none =>
      rw [mantissaText, hf] at hc
      exact Or.inl (hn.whole c hc)
    | some fraction =>
      have hfraction : IsDigits fraction := by simpa [hf] using hn.fraction
      rw [mantissaText, hf] at hc
      rcases List.mem_append.mp hc with hc | hc
      · exact Or.inl (hn.whole c hc)
      · rcases List.mem_cons.mp hc with rfl | hc
        · exact Or.inr (by decide)
        · exact Or.inl (hfraction c hc)
  intro c hc
  cases he : n.exponent with
  | none =>
    rw [text, he] at hc
    exact hmantissa c hc
  | some e =>
    have hwell := hn.exponent e he
    rw [text, he] at hc
    rcases List.mem_append.mp hc with hc | hc
    · exact hmantissa c hc
    · rcases List.mem_cons.mp hc with rfl | hc
      · rcases hwell.marker with hm | hm
        · exact Or.inr (by rw [hm]; decide)
        · exact Or.inr (by rw [hm]; decide)
      · rcases List.mem_append.mp hc with hc | hc
        · rcases hwell.sign c (Option.mem_toList.mp hc) with rfl | rfl
          · exact Or.inr (by decide)
          · exact Or.inr (by decide)
        · exact Or.inl (hwell.digits c hc)

/-! ## What may go on a numeral -/

/-- A character that can go on a numeral that is complete. -/
def joins (c : Char) : Bool := c.isDigit || c = '.' || c.isAlpha

/-- A sign that can go on an exponent that has no digits yet. -/
def isSign (c : Char) : Bool := c = '+' || c = '-'

section

variable {rest : List Char}

theorem stopsAt_isDigit (h : StopsAt joins rest) : StopsAt Char.isDigit rest :=
  h.mono (fun c hc => by simp [joins, hc])

theorem ne_point (h : StopsAt joins rest) (tail : List Char) : rest ≠ '.' :: tail := by
  rintro rfl
  exact absurd h.head (by decide)

theorem not_marker {c : Char} (h : StopsAt joins (c :: rest)) : ¬ (c = 'e' ∨ c = 'E') := by
  rintro (rfl | rfl)
  · exact absurd h.head (by decide)
  · exact absurd h.head (by decide)

theorem not_isDigit_of_marker {c : Char} (h : c = 'e' ∨ c = 'E') : c.isDigit = false := by
  rcases h with rfl | rfl <;> rfl

/-! ## A numeral comes back whole -/

theorem scanSign_append {e : Exponent} (he : e.WellFormed) :
    scanSign (e.sign.toList ++ (e.digits ++ rest)) = (e.sign, e.digits ++ rest) := by
  cases hs : e.sign with
  | some c =>
    have hc := he.sign c hs
    simp [scanSign, hc]
  | none =>
    obtain ⟨d, ds, hd⟩ := List.exists_cons_of_ne_nil he.ne_nil
    have hdigit : d.isDigit = true := he.digits d (by rw [hd]; exact List.mem_cons_self)
    have hsign : ¬ (d = '+' ∨ d = '-') := by
      rintro (rfl | rfl)
      · exact absurd hdigit (by decide)
      · exact absurd hdigit (by decide)
    simp [scanSign, hd, hsign]

theorem scanExponent_append {e : Exponent} (he : e.WellFormed)
    (hrest : StopsAt Char.isDigit rest) : scanExponent (e.text ++ rest) = (some e, rest) := by
  have htake := hrest.takeWhile_row he.digits
  have hdrop := hrest.dropWhile_row he.digits
  obtain ⟨d, ds, hd⟩ := List.exists_cons_of_ne_nil he.ne_nil
  simp only [Exponent.text, List.cons_append, List.append_assoc, scanExponent, if_pos he.marker,
    scanSign_append he, htake, hdrop]
  rw [hd]
  simp only [Prod.mk.injEq, and_true, Option.some.injEq]
  rw [← hd]

theorem scanExponent_of_stops (h : StopsAt joins rest) : scanExponent rest = (none, rest) := by
  cases rest with
  | nil => rfl
  | cons c tail => simp only [scanExponent, if_neg (not_marker h)]

theorem scanMantissa_append {n : Numeral} (hn : n.WellFormed) (hdigit : StopsAt Char.isDigit rest)
    (hpoint : ∀ tail, rest ≠ '.' :: tail) :
    scanMantissa (n.mantissaText ++ rest) = some ((n.whole, n.fraction), rest) := by
  cases hf : n.fraction with
  | none =>
    have hne : n.whole ≠ [] := by simpa [hf] using hn.ne_nil
    have htake := hdigit.takeWhile_row hn.whole
    have hdrop := hdigit.dropWhile_row hn.whole
    simp only [mantissaText, hf, scanMantissa, htake, hdrop, if_neg hne]
  | some fraction =>
    have hfraction : IsDigits fraction := by simpa [hf] using hn.fraction
    have hne : ¬ (n.whole = [] ∧ fraction = []) := by
      rintro ⟨hw, rfl⟩
      exact hn.ne_nil (by simp [hw, hf])
    have hstop : StopsAt Char.isDigit ('.' :: (fraction ++ rest)) := stopsAt_cons rfl
    have htake := hstop.takeWhile_row hn.whole
    have hdrop := hstop.dropWhile_row hn.whole
    have hftake := hdigit.takeWhile_row hfraction
    have hfdrop := hdigit.dropWhile_row hfraction
    simp only [mantissaText, hf, List.append_assoc, List.cons_append, scanMantissa, htake, hdrop,
      hftake, hfdrop, if_neg hne]

/-- An exponent goes on neither the digits in front of it nor their point. -/
theorem stopsAt_exponent {e : Exponent} (he : e.WellFormed) (rest : List Char) :
    StopsAt Char.isDigit (e.text ++ rest) :=
  stopsAt_cons (not_isDigit_of_marker he.marker)

theorem exponent_ne_point {e : Exponent} (he : e.WellFormed) (rest tail : List Char) :
    e.text ++ rest ≠ '.' :: tail := by
  intro heq
  simp only [Exponent.text, List.cons_append, List.cons.injEq] at heq
  rcases he.marker with hm | hm
  · rw [hm] at heq; exact absurd heq.1 (by decide)
  · rw [hm] at heq; exact absurd heq.1 (by decide)

/-- The scanner takes a numeral whole, whatever follows it that cannot go on it. -/
theorem scan_append {n : Numeral} (hn : n.WellFormed) (h : StopsAt joins rest) :
    scan (n.text ++ rest) = some (n, rest) := by
  cases he : n.exponent with
  | none =>
    simp only [text, he, scan, scanMantissa_append hn (stopsAt_isDigit h) (ne_point h),
      Option.map_some, scanExponent_of_stops h]
    rw [← he]
  | some e =>
    have hwell := hn.exponent e he
    have hmantissa := scanMantissa_append hn (stopsAt_exponent hwell rest)
      (exponent_ne_point hwell rest)
    simp only [text, he, List.append_assoc, scan, hmantissa, Option.map_some,
      scanExponent_append hwell (stopsAt_isDigit h)]
    rw [← he]

end

/-! ## The longest numeral -/

/-- Where a numeral stands, the digits and the point are taken at least as far as the numeral has
them. -/
theorem scanMantissa_reaches {n : Numeral} (hn : n.WellFormed) (tail : List Char) :
    ∃ m rest, scanMantissa (n.mantissaText ++ tail) = some (m, rest) ∧
      rest.length ≤ tail.length := by
  have hdigits := List.length_dropWhile_le Char.isDigit tail
  cases hf : n.fraction with
  | none =>
    have hne : n.whole ++ tail.takeWhile Char.isDigit ≠ [] := by
      intro hnil
      exact hn.ne_nil (by simp [hf, (List.append_eq_nil_iff.mp hnil).1])
    simp only [mantissaText, hf, scanMantissa, List.takeWhile_append_of_pos hn.whole,
      List.dropWhile_append_of_pos hn.whole]
    split
    · rename_i rest hrest
      have hfraction := List.length_dropWhile_le Char.isDigit rest
      rw [hrest, List.length_cons] at hdigits
      rw [if_neg (fun h => hne h.1)]
      exact ⟨_, _, rfl, by omega⟩
    · rw [if_neg hne]
      exact ⟨_, _, rfl, hdigits⟩
  | some fraction =>
    have hfraction : IsDigits fraction := by simpa [hf] using hn.fraction
    have hne : ¬ (n.whole = [] ∧ fraction ++ tail.takeWhile Char.isDigit = []) := by
      rintro ⟨hw, hfr⟩
      exact hn.ne_nil (by simp [hw, hf, (List.append_eq_nil_iff.mp hfr).1])
    have hstop : StopsAt Char.isDigit ('.' :: (fraction ++ tail)) := stopsAt_cons rfl
    have htake := hstop.takeWhile_row hn.whole
    have hdrop := hstop.dropWhile_row hn.whole
    simp only [mantissaText, hf, List.append_assoc, List.cons_append, scanMantissa, htake, hdrop,
      List.takeWhile_append_of_pos hfraction, List.dropWhile_append_of_pos hfraction, if_neg hne]
    exact ⟨_, _, rfl, hdigits⟩

theorem scanExponent_reaches {e : Exponent} (he : e.WellFormed) (tail : List Char) :
    (scanExponent (e.text ++ tail)).2.length ≤ tail.length := by
  simp only [Exponent.text, List.cons_append, List.append_assoc, scanExponent, if_pos he.marker,
    scanSign_append he, List.takeWhile_append_of_pos he.digits,
    List.dropWhile_append_of_pos he.digits]
  split
  · rename_i hnil
    exact absurd (List.append_eq_nil_iff.mp hnil).1 he.ne_nil
  · exact List.length_dropWhile_le Char.isDigit tail

theorem length_scanExponent (cs : List Char) : (scanExponent cs).2.length ≤ cs.length := by
  have htext := congrArg List.length (scanExponent_text cs)
  rw [List.length_append] at htext
  omega

theorem scan_reaches {n : Numeral} (hn : n.WellFormed) (tail : List Char) :
    ∃ m rest, scan (n.text ++ tail) = some (m, rest) ∧ rest.length ≤ tail.length := by
  cases he : n.exponent with
  | none =>
    obtain ⟨m, rest, hscan, hrest⟩ := scanMantissa_reaches hn tail
    have hexponent := length_scanExponent rest
    simp only [text, he, scan, hscan, Option.map_some]
    exact ⟨_, _, rfl, by omega⟩
  | some e =>
    have hwell := hn.exponent e he
    have hmantissa := scanMantissa_append hn (stopsAt_exponent hwell tail)
      (exponent_ne_point hwell tail)
    simp only [text, he, List.append_assoc, scan, hmantissa, Option.map_some]
    exact ⟨_, _, rfl, scanExponent_reaches hwell tail⟩

/-! ## What comes back is a numeral -/

theorem scanSign_isSign {cs rest : List Char} {c : Char} (h : scanSign cs = (some c, rest)) :
    c = '+' ∨ c = '-' := by
  cases cs with
  | nil => cases h
  | cons d tail =>
    simp only [scanSign] at h
    split at h
    · rename_i hd
      cases h
      exact hd
    · cases h

theorem scanExponent_wellFormed {cs rest : List Char} {e : Exponent}
    (h : scanExponent cs = (some e, rest)) : e.WellFormed := by
  cases cs with
  | nil => cases h
  | cons c tail =>
    simp only [scanExponent] at h
    split at h
    · rename_i hmarker
      split at h
      · cases h
      · rename_i d ds hds
        cases h
        refine ⟨hmarker, fun s hs => ?_, ?_, by simp⟩
        · exact scanSign_isSign (Prod.ext hs rfl)
        · rw [IsDigits, ← hds]
          exact fun x hx => List.mem_takeWhile_imp hx
    · cases h

theorem scanMantissa_isDigits {cs rest : List Char} {whole : List Char}
    {fraction : Option (List Char)} (h : scanMantissa cs = some ((whole, fraction), rest)) :
    IsDigits whole ∧ IsDigits (fraction.getD []) ∧ whole ++ fraction.getD [] ≠ [] := by
  have hwhole : IsDigits (cs.takeWhile Char.isDigit) := fun x hx => List.mem_takeWhile_imp hx
  simp only [scanMantissa] at h
  split at h
  · split at h
    · cases h
    · rename_i tail _ hne
      cases h
      refine ⟨hwhole, fun x hx => List.mem_takeWhile_imp hx, ?_⟩
      rw [Option.getD_some, ne_eq, List.append_eq_nil_iff]
      exact hne
  · split at h
    · cases h
    · rename_i hne
      cases h
      exact ⟨hwhole, by simp [IsDigits], by simpa using hne⟩

theorem scan_wellFormed {cs rest : List Char} {n : Numeral} (h : scan cs = some (n, rest)) :
    n.WellFormed := by
  simp only [scan, Option.map_eq_some_iff] at h
  obtain ⟨⟨⟨whole, fraction⟩, tail⟩, hmantissa, heq⟩ := h
  simp only [Prod.mk.injEq] at heq
  obtain ⟨rfl, rfl⟩ := heq
  obtain ⟨hwhole, hfraction, hne⟩ := scanMantissa_isDigits hmantissa
  exact ⟨hwhole, hfraction, hne, fun e he => scanExponent_wellFormed (Prod.ext he rfl)⟩

/-! ## Text that cannot go on into what follows -/

/-- A text that goes on no numeral in front of it, complete or not. -/
structure Separate (rest : List Char) : Prop where
  digit : StopsAt Char.isDigit rest
  point : ∀ tail, rest ≠ '.' :: tail
  sign : StopsAt isSign rest
  exponent : scanExponent rest = (none, rest)

section

variable {cs rest : List Char}

theorem separate_of_stops (h : StopsAt joins rest) (hsign : StopsAt isSign rest) : Separate rest :=
  ⟨stopsAt_isDigit h, ne_point h, hsign, scanExponent_of_stops h⟩

theorem scanSign_append_of_stops (h : StopsAt isSign rest) :
    scanSign (cs ++ rest) = ((scanSign cs).1, (scanSign cs).2 ++ rest) := by
  cases cs with
  | nil =>
    cases rest with
    | nil => rfl
    | cons c tail =>
      have hc : ¬ (c = '+' ∨ c = '-') := by simpa [isSign] using h.head
      simp [scanSign, hc]
  | cons c tail =>
    simp only [List.cons_append, scanSign]
    split <;> rfl

theorem Separate.scanExponent_append (h : Separate rest) :
    scanExponent (cs ++ rest) = ((scanExponent cs).1, (scanExponent cs).2 ++ rest) := by
  cases cs with
  | nil => exact h.exponent
  | cons c tail =>
    simp only [List.cons_append, scanExponent, scanSign_append_of_stops h.sign,
      h.digit.takeWhile_append, h.digit.dropWhile_append]
    split
    · split <;> rfl
    · rfl

theorem Separate.scanMantissa_append (h : Separate rest) :
    scanMantissa (cs ++ rest) = (scanMantissa cs).map fun m => (m.1, m.2 ++ rest) := by
  simp only [scanMantissa, h.digit.takeWhile_append, h.digit.dropWhile_append]
  cases hdrop : cs.dropWhile Char.isDigit with
  | nil =>
    have hpoint := h.point
    simp only [List.nil_append]
    split <;> rfl
  | cons c tail =>
    by_cases hc : c = '.'
    · subst hc
      simp only [List.cons_append, h.digit.takeWhile_append, h.digit.dropWhile_append]
      split <;> rfl
    · have hne : ∀ tail', c :: tail ≠ '.' :: tail' := by simp [hc]
      have hne' : ∀ tail', c :: (tail ++ rest) ≠ '.' :: tail' := by simp [hc]
      simp only [List.cons_append]
      split <;> rfl

/-- A text that goes on no numeral does not change the numeral in front of it. -/
theorem Separate.scan_append (h : Separate rest) :
    scan (cs ++ rest) = (scan cs).map fun m => (m.1, m.2 ++ rest) := by
  simp only [scan, h.scanMantissa_append, Option.map_map]
  congr 1
  funext m
  simp only [Function.comp_apply, h.scanExponent_append]

end

theorem scan_eq_none {c : Char} {cs : List Char} (hdigit : c.isDigit = false) (hpoint : c ≠ '.') :
    scan (c :: cs) = none := by
  have hne : ∀ tail, c :: cs ≠ '.' :: tail := by simp [hpoint]
  simp [scan, scanMantissa, hdigit]

end Numeral

end Calculator
