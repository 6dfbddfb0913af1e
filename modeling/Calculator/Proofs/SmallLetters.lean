-- A text in small letters is cut into the same tokens, in small letters. The
-- lexer asks whether a character is a letter, and whether it is the marker of an
-- exponent, and a capital gives the same answers as its small letter.
import Calculator.Constant
import Calculator.Proofs.NumberText
import Calculator.Proofs.TokenScan

namespace Calculator

/-! ## Characters -/

theorem isDigit_toLower (c : Char) : c.toLower.isDigit = c.isDigit := by
  by_cases halpha : c.isAlpha = true
  · have hlower : c.toLower.isAlpha = true := by rw [Char.isAlpha_toLower_eq_isAlpha, halpha]
    rw [Token.not_isDigit_of_isAlpha halpha, Token.not_isDigit_of_isAlpha hlower]
  · have hupper : ¬ c.isUpper = true := by
      intro hupper
      simp [Char.isAlpha, hupper] at halpha
    rw [Char.toLower_eq_of_not_isUpper hupper]

/-- A small letter comes from itself or from its capital. -/
theorem eq_or_eq_toUpper_of_toLower {c d : Char} (h : c.toLower = d) : c = d ∨ c = d.toUpper := by
  by_cases hupper : c.isUpper = true
  · right
    rw [← h, Char.toUpper_toLower_eq_toUpper,
      Char.toUpper_eq_of_not_isLower (Char.not_isLower_of_isUpper hupper)]
  · left
    rw [← h, Char.toLower_eq_of_not_isUpper hupper]

/-- A character that is no letter comes from itself only. -/
theorem toLower_eq_iff {c d : Char} (hd : d.isAlpha = false) : c.toLower = d ↔ c = d := by
  simp only [Char.isAlpha, Bool.or_eq_false_iff] at hd
  constructor
  · intro h
    rcases eq_or_eq_toUpper_of_toLower h with hc | hc
    · exact hc
    · rwa [Char.toUpper_eq_of_not_isLower (by simp [hd.2])] at hc
  · rintro rfl
    exact Char.toLower_eq_of_not_isUpper (by simp [hd.1])

theorem isMarker_toLower (c : Char) :
    (c.toLower = 'e' ∨ c.toLower = 'E') ↔ (c = 'e' ∨ c = 'E') := by
  constructor
  · rintro (h | h)
    · exact eq_or_eq_toUpper_of_toLower h
    · have hupper := Char.isUpper_toLower_eq_false c
      rw [h] at hupper
      cases hupper
  · rintro (rfl | rfl)
    · exact Or.inl rfl
    · exact Or.inl rfl

/-- Letters have the capitals of a word exactly when they have its small letters. -/
theorem Constant.map_capital_eq_iff {letters : List Char} (h : ∀ c ∈ letters, c.isAlpha = true)
    (word : List Char) :
    letters.map capital = word.map Char.toUpper ↔
      letters.map Char.toLower = word.map Char.toLower := by
  have hcapitals : letters.map capital = letters.map Char.toUpper :=
    List.map_congr_left fun c hc => capital_of_isAlpha (h c hc)
  rw [hcapitals]
  constructor
  · intro hupper
    have hsmall := congrArg (List.map Char.toLower) hupper
    simpa [Function.comp_def] using hsmall
  · intro hsmall
    have hupper := congrArg (List.map Char.toUpper) hsmall
    simpa [Function.comp_def] using hupper

section

variable {α : Type} {f : α → α} {p : α → Bool}

/-- A class that does not tell the members of a list from their images cuts the list of the images
at the same place. -/
theorem takeWhile_map_of_eq (hp : ∀ x, p (f x) = p x) (xs : List α) :
    (xs.map f).takeWhile p = (xs.takeWhile p).map f := by
  rw [List.takeWhile_map]
  congr 2
  funext x
  exact hp x

theorem dropWhile_map_of_eq (hp : ∀ x, p (f x) = p x) (xs : List α) :
    (xs.map f).dropWhile p = (xs.dropWhile p).map f := by
  rw [List.dropWhile_map]
  congr 2
  funext x
  exact hp x

end

/-! ## Numerals -/

namespace Numeral

/-- An exponent with a small marker. -/
def Exponent.toLower (e : Exponent) : Exponent := { e with marker := e.marker.toLower }

/-- A numeral with a small marker in its exponent. -/
def toLower (n : Numeral) : Numeral := { n with exponent := n.exponent.map Exponent.toLower }

theorem IsDigits.map_toLower {ds : List Char} (h : IsDigits ds) : ds.map Char.toLower = ds := by
  have hself : ∀ d ∈ ds, d.toLower = d := fun d hd => Double.toLower_of_isDigit (h d hd)
  rw [List.map_congr_left hself, List.map_id']

theorem takeWhile_isDigit_map_toLower (cs : List Char) :
    (cs.map Char.toLower).takeWhile Char.isDigit = cs.takeWhile Char.isDigit := by
  have hdigits : IsDigits (cs.takeWhile Char.isDigit) := fun c hc => List.mem_takeWhile_imp hc
  rw [takeWhile_map_of_eq isDigit_toLower, hdigits.map_toLower]

theorem scanSign_map_toLower (cs : List Char) :
    scanSign (cs.map Char.toLower) = ((scanSign cs).1, (scanSign cs).2.map Char.toLower) := by
  cases cs with
  | nil => rfl
  | cons c cs =>
    have hplus : c.toLower = '+' ↔ c = '+' := toLower_eq_iff rfl
    have hminus : c.toLower = '-' ↔ c = '-' := toLower_eq_iff rfl
    simp only [List.map_cons, scanSign, hplus, hminus]
    split
    · rename_i hsign
      rcases hsign with rfl | rfl
      · rfl
      · rfl
    · rfl

theorem scanExponent_map_toLower (cs : List Char) :
    scanExponent (cs.map Char.toLower) =
      ((scanExponent cs).1.map Exponent.toLower, (scanExponent cs).2.map Char.toLower) := by
  cases cs with
  | nil => rfl
  | cons c cs =>
    simp only [List.map_cons, scanExponent, isMarker_toLower, scanSign_map_toLower,
      takeWhile_isDigit_map_toLower, dropWhile_map_of_eq isDigit_toLower]
    split
    · split
      · rfl
      · rfl
    · rfl

theorem scanMantissa_map_toLower (cs : List Char) :
    scanMantissa (cs.map Char.toLower) =
      (scanMantissa cs).map fun m => (m.1, m.2.map Char.toLower) := by
  simp only [scanMantissa, takeWhile_isDigit_map_toLower, dropWhile_map_of_eq isDigit_toLower]
  cases hdrop : cs.dropWhile Char.isDigit with
  | nil =>
    simp only [List.map_nil]
    split <;> rfl
  | cons c rest =>
    by_cases hpoint : c = '.'
    · subst hpoint
      simp only [List.map_cons, show '.'.toLower = '.' from rfl, takeWhile_isDigit_map_toLower,
        dropWhile_map_of_eq isDigit_toLower]
      split <;> rfl
    · have hpoint' : ¬ c.toLower = '.' := fun h => hpoint ((toLower_eq_iff rfl).mp h)
      have hne : ∀ tail, c :: rest ≠ '.' :: tail := by simp [hpoint]
      have hne' : ∀ tail, c.toLower :: rest.map Char.toLower ≠ '.' :: tail := by simp [hpoint']
      simp only [List.map_cons]
      split <;> rfl

theorem scan_map_toLower (cs : List Char) :
    scan (cs.map Char.toLower) = (scan cs).map fun m => (m.1.toLower, m.2.map Char.toLower) := by
  simp only [scan, scanMantissa_map_toLower, Option.map_map]
  congr 1
  funext m
  simp only [Function.comp_apply, scanExponent_map_toLower]
  rfl

theorem text_toLower {n : Numeral} (hn : n.WellFormed) :
    n.toLower.text = n.text.map Char.toLower := by
  have hmantissa : n.mantissaText.map Char.toLower = n.mantissaText := by
    have hfraction := hn.fraction
    unfold mantissaText
    cases hf : n.fraction with
    | none => exact hn.whole.map_toLower
    | some fraction =>
      rw [hf] at hfraction
      rw [List.map_append, List.map_cons, hn.whole.map_toLower]
      exact congrArg (n.whole ++ '.' :: ·) (IsDigits.map_toLower hfraction)
  cases he : n.exponent with
  | none =>
    simp only [text, toLower, he, Option.map_none, hmantissa]
    rfl
  | some e =>
    have hwell := hn.exponent e he
    have hsign : e.sign.toList.map Char.toLower = e.sign.toList := by
      cases hs : e.sign with
      | none => rfl
      | some c =>
        rcases hwell.sign c hs with rfl | rfl
        · rfl
        · rfl
    simp only [text, toLower, he, Option.map_some, List.map_append, hmantissa, Exponent.text,
      List.map_cons, hsign, hwell.digits.map_toLower]
    rfl

theorem decimal_toLower (n : Numeral) : n.toLower.decimal = n.decimal := by
  cases n with
  | mk whole fraction exponent =>
    cases exponent with
    | none => rfl
    | some e => rfl

end Numeral

/-! ## Tokens -/

namespace Token

/-- A token whose text is in small letters. -/
def toLower : Token → Token
  | number text => number text.toLower
  | function text => function text.toLower
  | name text => name text.toLower
  | valueOf text => valueOf text.toLower
  | token => token

theorem toLower_ofList (cs : List Char) :
    (String.ofList cs).toLower = String.ofList (cs.map Char.toLower) := by
  apply String.ext
  simp [String.toLower]

theorem toLower_ofSign (c : Char) : (ofSign c).toLower = ofSign c := by
  have hroot : "sqrt".toLower = "sqrt" := by decide +kernel
  unfold ofSign
  repeat' split
  · rfl
  · rfl
  · rfl
  · exact congrArg function hroot
  · rfl

theorem isAlpha_map_toLower {letters : List Char} (h : ∀ c ∈ letters, c.isAlpha = true) :
    ∀ c ∈ letters.map Char.toLower, c.isAlpha = true := by
  intro c hc
  obtain ⟨d, hd, rfl⟩ := List.mem_map.mp hc
  rw [Char.isAlpha_toLower_eq_isAlpha, h d hd]

theorem scan_map_toLower (cs : List Char) :
    scan (cs.map Char.toLower) = (scan cs).map toLower := by
  fun_induction scan cs with
  | case1 => simp [scan]
  | case2 c tail n after hscan ih =>
    have hlower : Numeral.scan ((c :: tail).map Char.toLower) =
        some (n.toLower, after.map Char.toLower) := by
      rw [Numeral.scan_map_toLower, hscan]
      rfl
    rw [scan_of_numeral hlower, ih, Numeral.text_toLower (Numeral.scan_wellFormed hscan),
      ← toLower_ofList]
    rfl
  | case3 c tail hscan hc text after hafter ih =>
    have hcut : c :: tail = (c :: tail.takeWhile Char.isAlpha) ++ '(' :: after := by
      rw [List.cons_append, ← hafter, List.takeWhile_append_dropWhile]
    have hletters : ∀ x ∈ (c :: tail.takeWhile Char.isAlpha).map Char.toLower, x.isAlpha = true :=
      isAlpha_map_toLower (isAlpha_of_mem_takeWhile hc)
    have hparen : ('(' :: after).map Char.toLower = '(' :: after.map Char.toLower := rfl
    rw [hcut, List.map_append, hparen, scan_function (by simp) hletters, ih, ← toLower_ofList]
    rfl
  | case4 c tail hscan hc text hparen ih =>
    have hcut : c :: tail = (c :: tail.takeWhile Char.isAlpha) ++ tail.dropWhile Char.isAlpha := by
      rw [List.cons_append, List.takeWhile_append_dropWhile]
    have hletters : ∀ x ∈ (c :: tail.takeWhile Char.isAlpha).map Char.toLower, x.isAlpha = true :=
      isAlpha_map_toLower (isAlpha_of_mem_takeWhile hc)
    have hstop : StopsAt Char.isAlpha ((tail.dropWhile Char.isAlpha).map Char.toLower) := by
      rw [← dropWhile_map_of_eq Char.isAlpha_toLower_eq_isAlpha]
      exact stopsAt_dropWhile
    have hparen' : ((tail.dropWhile Char.isAlpha).map Char.toLower).head? ≠ some '(' := by
      rw [List.head?_map]
      intro hhead
      obtain ⟨d, hd, hlower⟩ := Option.map_eq_some_iff.mp hhead
      rw [(toLower_eq_iff rfl).mp hlower] at hd
      obtain ⟨after, hafter⟩ := List.head?_eq_some_iff.mp hd
      exact hparen after hafter
    rw [hcut, List.map_append, scan_name (by simp) hletters hstop hparen', ih, ← toLower_ofList]
    rfl
  | case5 c tail hscan hc ih =>
    have hself : c.toLower = c := (toLower_eq_iff (by simpa using hc)).mpr rfl
    have hlower : Numeral.scan (c :: tail.map Char.toLower) = none := by
      have hmap := Numeral.scan_map_toLower (c :: tail)
      rwa [hscan, List.map_cons, hself] at hmap
    rw [List.map_cons, hself, scan_of_sign hlower (by simpa using hc), ih, List.map_cons,
      toLower_ofSign]

end Token

theorem tokenize_toLower (text : String) :
    tokenize text.toLower = (tokenize text).map Token.toLower := by
  unfold tokenize
  rw [← Token.scan_map_toLower]
  simp [String.toLower]

end Calculator
