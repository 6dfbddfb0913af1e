-- From text to tokens. The lexer never fails: a character that starts no
-- numeral, no name and no other token becomes an operator token of its own,
-- and only the evaluation refuses it.
import Calculator.Numeral
import Calculator.Token

namespace Calculator

namespace Token

/-- The token of a character that starts neither a numeral nor a name. -/
def ofSign (c : Char) : Token :=
  if c = '(' then openParen
  else if c = ')' then closeParen
  else if c = '%' then percent
  else if c = '√' then function "sqrt"
  else operator c

/-- The tokens of a text, from left to right. At each place a numeral is tried first, then a
run of ASCII letters, then a single sign. A name with an opening parenthesis right after it is a
function, and the parenthesis stays a token of its own. -/
def scan : List Char → List Token
  | [] => []
  | c :: rest =>
    match _hscan : Numeral.scan (c :: rest) with
    | some (numeral, after) => number (String.ofList numeral.text) :: scan after
    | none =>
      if c.isAlpha then
        let text := String.ofList (c :: rest.takeWhile Char.isAlpha)
        match _hafter : rest.dropWhile Char.isAlpha with
        | '(' :: after => function text :: openParen :: scan after
        | after => name text :: scan after
      else ofSign c :: scan rest
termination_by cs => cs.length
decreasing_by
  · exact Numeral.scan_rest_length _hscan
  all_goals
    have hdrop := (List.dropWhile_sublist Char.isAlpha (l := rest)).length_le
    simp_all <;> omega

end Token

/-- The tokens of a plain text. -/
def tokenize (text : String) : List Token :=
  Token.scan text.toList

end Calculator
