-- A text cut into pieces, each a token with the characters that it is read from:
-- the longest numeral where one starts, else a whole row of letters, else one
-- character.
import Calculator.Token.Lexer

namespace Calculator

/-! ## What a token is written as -/

namespace Token

/-- The characters that write a token. The two kinds that are never typed are written as the typed
tokens that they stand for. -/
def written : Token → List Char
  | number text => text.toList
  | function text => text.toList
  | name text => text.toList
  | valueOf text => text.toList
  | openParen => ['(']
  | closeParen => [')']
  | operator sign => [sign]
  | percent => ['%']
  | negate => ['-']

/-- The name of the function for the root sign, and every other character as it is. -/
def spellRoot (c : Char) : List Char :=
  if c = '√' then ['s', 'q', 'r', 't'] else [c]

/-- The token of a whole row of letters, with `rest` right behind it. -/
def ofLetters (letters rest : List Char) : Token :=
  if rest.head? = some '(' then function (String.ofList letters)
  else name (String.ofList letters)

end Token

/-- Does some numeral start a text? -/
def Numeral.Starts (cs : List Char) : Prop :=
  ∃ front, front <+: cs ∧ Numeral.IsNumeral front

/-- A row of letters between two texts that is as long as it can be. -/
structure WholeWord (before letters after : List Char) : Prop where
  ne_nil : letters ≠ []
  isAlpha : ∀ c ∈ letters, c.isAlpha = true
  starts : ∀ c ∈ before.getLast?, c.isAlpha = false
  ends : ∀ c ∈ after.head?, c.isAlpha = false

/-! ## Pieces -/

/-- A token with the characters that it is read from. -/
structure Piece where
  token : Token
  source : List Char
deriving DecidableEq, Repr

namespace Piece

/-- The text that a row of pieces is read from. -/
def sources (pieces : List Piece) : List Char :=
  pieces.flatMap source

/-- A number token. -/
def IsNumber (p : Piece) : Prop :=
  ∃ text, p.token = .number text

/-- A name or a function, but not the bare root sign. -/
def IsWord (p : Piece) : Prop :=
  (∃ text, p.token = .name text) ∨ (∃ text, p.token = .function text) ∧ p.source ≠ ['√']

/-- The rules for a piece, with the text `before` in front of it and the pieces `after` behind
it. -/
structure ByRule (before : List Char) (p : Piece) (after : List Piece) : Prop where
  /-- A piece takes at least one character. -/
  ne_nil : p.source ≠ []
  /-- A number stands exactly where some numeral starts. -/
  number_iff : p.IsNumber ↔ Numeral.Starts (p.source ++ sources after)
  /-- The text of a number is the longest numeral that starts there. -/
  number_longest : ∀ text, p.token = .number text →
    text.toList = p.source ∧ Numeral.IsNumeral p.source ∧
      ∀ front, front <+: p.source ++ sources after → Numeral.IsNumeral front →
        front.length ≤ p.source.length
  /-- A word is a whole row of letters. -/
  word_whole : p.IsWord → WholeWord before p.source (sources after)
  /-- It is a function when a parenthesis follows at once, and otherwise a name. -/
  word_token : p.IsWord → p.token = .ofLetters p.source (sources after)
  /-- The parenthesis that makes it a function is the next token. -/
  word_paren : p.IsWord → (sources after).head? = some '(' →
    after.head? = some ⟨.openParen, ['(']⟩
  /-- Any other piece is one character, and no letter. -/
  sign : ¬ p.IsNumber → ¬ p.IsWord → ∃ c, c.isAlpha = false ∧ p = ⟨.ofSign c, [c]⟩

/-- A row of pieces that all keep the rules, with the text `before` in front of them. -/
def Cut (before : List Char) : List Piece → Prop
  | [] => True
  | p :: after => ByRule before p after ∧ Cut (before ++ p.source) after

@[simp] theorem sources_nil : sources [] = [] := rfl

@[simp] theorem sources_cons (p : Piece) (pieces : List Piece) :
    sources (p :: pieces) = p.source ++ sources pieces := rfl

end Piece

end Calculator
