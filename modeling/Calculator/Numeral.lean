-- Decimal numerals: digits with at most one point among them, and after them maybe
-- an exponent. `scan` cuts the longest one off the front of a text. An exponent
-- with no digits is no part of it, and a point alone starts none.
import Calculator.Decimal

namespace Calculator

/-- The exponent of a numeral: its marker `e` or `E`, maybe a sign, and digits. -/
structure Numeral.Exponent where
  marker : Char
  sign : Option Char
  digits : List Char
deriving DecidableEq, Repr

/-- A numeral, cut into its parts. -/
structure Numeral where
  /-- The digits before the point. -/
  whole : List Char
  /-- The digits after the point, if there is a point. -/
  fraction : Option (List Char)
  exponent : Option Numeral.Exponent
deriving DecidableEq, Repr

namespace Numeral

/-! ## Parts back to text -/

/-- The text of an exponent. -/
def Exponent.text (e : Exponent) : List Char :=
  e.marker :: (e.sign.toList ++ e.digits)

/-- The text of the digits and the point. -/
def mantissaText (n : Numeral) : List Char :=
  match n.fraction with
  | none => n.whole
  | some fraction => n.whole ++ '.' :: fraction

/-- The text of a numeral. -/
def text (n : Numeral) : List Char :=
  match n.exponent with
  | none => n.mantissaText
  | some e => n.mantissaText ++ e.text

/-! ## The grammar -/

/-- A row of ASCII digits. -/
def IsDigits (cs : List Char) : Prop := ∀ c ∈ cs, c.isDigit = true

instance (cs : List Char) : Decidable (IsDigits cs) :=
  List.decidableBAll _ _

/-- The parts of a complete exponent. -/
structure Exponent.WellFormed (e : Exponent) : Prop where
  marker : e.marker = 'e' ∨ e.marker = 'E'
  sign : ∀ c, e.sign = some c → c = '+' ∨ c = '-'
  digits : IsDigits e.digits
  ne_nil : e.digits ≠ []

/-- The parts of a numeral: digits only, at least one of them beside the point, and a complete
exponent if there is one. -/
structure WellFormed (n : Numeral) : Prop where
  whole : IsDigits n.whole
  fraction : IsDigits (n.fraction.getD [])
  ne_nil : n.whole ++ n.fraction.getD [] ≠ []
  exponent : ∀ e, n.exponent = some e → e.WellFormed

/-- A text that is a numeral and nothing else. -/
def IsNumeral (cs : List Char) : Prop :=
  ∃ n : Numeral, n.WellFormed ∧ n.text = cs

/-! ## Text to parts -/

/-- Cuts a sign off the front, if there is one. -/
def scanSign : List Char → Option Char × List Char
  | [] => (none, [])
  | c :: rest => if c = '+' ∨ c = '-' then (some c, rest) else (none, c :: rest)

/-- Cuts a complete exponent off the front, if there is one. -/
def scanExponent : List Char → Option Exponent × List Char
  | [] => (none, [])
  | c :: rest =>
    if c = 'e' ∨ c = 'E' then
      let (sign, digitsOn) := scanSign rest
      match digitsOn.takeWhile Char.isDigit with
      | [] => (none, c :: rest)
      | d :: ds => (some ⟨c, sign, d :: ds⟩, digitsOn.dropWhile Char.isDigit)
    else (none, c :: rest)

/-- Cuts the digits and the point off the front, if a numeral starts there. -/
def scanMantissa (cs : List Char) : Option ((List Char × Option (List Char)) × List Char) :=
  let whole := cs.takeWhile Char.isDigit
  match cs.dropWhile Char.isDigit with
  | '.' :: rest =>
    let fraction := rest.takeWhile Char.isDigit
    if whole = [] ∧ fraction = [] then none
    else some ((whole, some fraction), rest.dropWhile Char.isDigit)
  | rest => if whole = [] then none else some ((whole, none), rest)

/-- Cuts the longest numeral off the front of a text, if a numeral starts there. -/
def scan (cs : List Char) : Option (Numeral × List Char) :=
  (scanMantissa cs).map fun ((whole, fraction), rest) =>
    let (exponent, rest) := scanExponent rest
    (⟨whole, fraction, exponent⟩, rest)

/-! ## The value -/

/-- The number that a row of digits stands for. -/
def ofDigits (digits : List Char) : Nat :=
  Nat.ofDigitChars 10 digits 0

/-- The number that an exponent stands for. -/
def Exponent.value (e : Exponent) : Int :=
  if e.sign = some '-' then -(ofDigits e.digits : Int) else ofDigits e.digits

/-- The exact value of a numeral. -/
def decimal (n : Numeral) : Decimal :=
  let fraction := n.fraction.getD []
  let shift := (n.exponent.map Exponent.value).getD 0
  ⟨ofDigits (n.whole ++ fraction), shift - fraction.length⟩

/-! ## Nothing is lost in a scan, and something is taken -/

theorem scanSign_text (cs : List Char) : (scanSign cs).1.toList ++ (scanSign cs).2 = cs := by
  cases cs with
  | nil => rfl
  | cons c rest => simp only [scanSign]; split <;> simp

theorem scanExponent_text (cs : List Char) :
    ((scanExponent cs).1.map Exponent.text).getD [] ++ (scanExponent cs).2 = cs := by
  cases cs with
  | nil => rfl
  | cons c rest =>
    simp only [scanExponent]
    split
    · split
      · rfl
      · next d ds hds =>
        have hcut := List.takeWhile_append_dropWhile (p := Char.isDigit) (l := (scanSign rest).2)
        rw [hds] at hcut
        simp only [Option.map_some, Option.getD_some, Exponent.text, List.cons_append,
          List.append_assoc, List.cons.injEq, true_and]
        rw [← List.cons_append, hcut, scanSign_text]
    · rfl

theorem scanMantissa_text {cs rest : List Char} {whole : List Char} {fraction : Option (List Char)}
    (h : scanMantissa cs = some ((whole, fraction), rest)) :
    mantissaText ⟨whole, fraction, none⟩ ++ rest = cs := by
  have hcut := List.takeWhile_append_dropWhile (p := Char.isDigit) (l := cs)
  simp only [scanMantissa] at h
  split at h
  · next tail htail =>
    split at h
    · cases h
    · cases h
      simp only [mantissaText, List.append_assoc, List.cons_append,
        List.takeWhile_append_dropWhile]
      rw [← htail, hcut]
  · split at h
    · cases h
    · cases h
      exact hcut

theorem scan_text {cs rest : List Char} {n : Numeral} (h : scan cs = some (n, rest)) :
    n.text ++ rest = cs := by
  simp only [scan, Option.map_eq_some_iff] at h
  obtain ⟨⟨⟨whole, fraction⟩, tail⟩, hmantissa, heq⟩ := h
  simp only [Prod.mk.injEq] at heq
  obtain ⟨rfl, rfl⟩ := heq
  rw [← scanMantissa_text hmantissa]
  have htail := scanExponent_text tail
  cases hexp : (scanExponent tail).1 with
  | none =>
    rw [hexp] at htail
    simpa [text, mantissaText] using htail
  | some e =>
    rw [hexp] at htail
    simp only [Option.map_some, Option.getD_some] at htail
    simp only [text, mantissaText, List.append_assoc, htail]

theorem scanMantissa_ne_nil {cs rest : List Char} {whole : List Char}
    {fraction : Option (List Char)} (h : scanMantissa cs = some ((whole, fraction), rest)) :
    mantissaText ⟨whole, fraction, none⟩ ≠ [] := by
  simp only [scanMantissa] at h
  split at h
  · split at h
    · cases h
    · cases h; simp [mantissaText]
  · split at h
    · cases h
    · next hne => cases h; exact hne

theorem scan_rest_length {cs rest : List Char} {n : Numeral} (h : scan cs = some (n, rest)) :
    rest.length < cs.length := by
  have htext := scan_text h
  simp only [scan, Option.map_eq_some_iff] at h
  obtain ⟨⟨⟨whole, fraction⟩, tail⟩, hmantissa, heq⟩ := h
  simp only [Prod.mk.injEq] at heq
  obtain ⟨rfl, rfl⟩ := heq
  have hne := scanMantissa_ne_nil hmantissa
  rw [← htext, List.length_append]
  have hpos : 0 < (mantissaText ⟨whole, fraction, none⟩).length := List.length_pos_iff.2 hne
  suffices 0 < (Numeral.mk whole fraction (scanExponent tail).1).text.length by omega
  simp only [text]
  split
  · exact hpos
  · simp only [List.length_append]
    have : 0 < (mantissaText ⟨whole, fraction, (scanExponent tail).1⟩).length := hpos
    omega

end Numeral

end Calculator
