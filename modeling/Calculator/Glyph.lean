-- The plain form of a text. The signs that the keys show for multiplication,
-- division, minus and pi become `*`, `/`, `-` and the name `PI`, and blanks go
-- away. Every other character stays.
import Calculator.Text.Blank

namespace Calculator

/-- The plain form of one character: one sign, the name `PI`, or nothing for a blank. -/
def plainGlyph (c : Char) : List Char :=
  if c = '×' then ['*']
  else if c = '÷' then ['/']
  else if c = '−' then ['-']
  else if c = 'π' then ['P', 'I']
  else if isBlank c then []
  else [c]

/-- The plain form of a text, character by character. -/
def plain (text : String) : String :=
  String.ofList (text.toList.flatMap plainGlyph)

@[simp] theorem toList_plain (text : String) :
    (plain text).toList = text.toList.flatMap plainGlyph := by
  simp [plain]

theorem plain_append (s t : String) : plain (s ++ t) = plain s ++ plain t := by
  simp [plain, List.flatMap_append]

end Calculator
