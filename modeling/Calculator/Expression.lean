-- Expressions as trees, in the grammar that the calculator reads. The value of a
-- tree is worked out straight from the tree, and its spelling is the plain text
-- that is typed for it.
import Calculator.Evaluation

namespace Calculator

/-- How strongly a part of an expression binds, the weakest first. -/
inductive Level where
  | sum
  | product
  | signed
  | power
  | factor
  | atom
deriving DecidableEq, Repr

/-- A row of ASCII letters, with at least one letter. -/
structure Letters where
  chars : List Char
  ne_nil : chars ≠ []
  isAlpha_of_mem : ∀ c ∈ chars, c.isAlpha = true

/-- The value of a name, in any letter case. The constants are the doubles nearest to π and e. -/
def Letters.value (answer : Float) (letters : Letters) : Float :=
  let small := letters.chars.map Char.toLower
  if small = ['a', 'n', 's'] then answer
  else if small = ['p', 'i'] then 3.141592653589793
  else if small = ['e'] then 2.718281828459045
  else 0

/-- The ways to write a function in front of its parenthesis. -/
inductive Caller where
  /-- The root sign. -/
  | root
  /-- The name of a function. -/
  | named (name : Letters) (f : NamedFunction)
      (known : NamedFunction.ofName? (String.ofList name.chars) = some f)

namespace Caller

/-- What is typed in front of the parenthesis. -/
def spelling : Caller → List Char
  | root => ['√']
  | named name _ _ => name.chars

/-- The function that is called. -/
def callee : Caller → NamedFunction
  | root => .squareRoot
  | named _ f _ => f

end Caller

/-- An expression that may stand where the level `l` is due. -/
inductive Expression : (l : Level) → Type where
  | add (a : Expression .sum) (b : Expression .product) : Expression .sum
  | subtract (a : Expression .sum) (b : Expression .product) : Expression .sum
  | ofProduct (a : Expression .product) : Expression .sum
  | multiply (a : Expression .product) (b : Expression .signed) : Expression .product
  | divide (a : Expression .product) (b : Expression .signed) : Expression .product
  | ofSigned (a : Expression .signed) : Expression .product
  | negate (a : Expression .signed) : Expression .signed
  | ofPower (a : Expression .power) : Expression .signed
  | raise (a : Expression .factor) (b : Expression .signed) : Expression .power
  | ofFactor (a : Expression .factor) : Expression .power
  | percent (a : Expression .factor) : Expression .factor
  | ofAtom (a : Expression .atom) : Expression .factor
  | number (n : Numeral) (wellFormed : n.WellFormed) : Expression .atom
  | name (letters : Letters) : Expression .atom
  | group (a : Expression .sum) : Expression .atom
  | call (f : Caller) (a : Expression .sum) : Expression .atom

namespace Expression

/-- The value of an expression, worked out from the tree. -/
def value (env : Environment) : {l : Level} → Expression l → Float
  | _, .add a b => a.value env + b.value env
  | _, .subtract a b => a.value env - b.value env
  | _, .ofProduct a => a.value env
  | _, .multiply a b => a.value env * b.value env
  | _, .divide a b => a.value env / b.value env
  | _, .ofSigned a => a.value env
  | _, .negate a => - a.value env
  | _, .ofPower a => a.value env
  | _, .raise a b => Float.pow (a.value env) (b.value env)
  | _, .ofFactor a => a.value env
  | _, .percent a => a.value env / 100
  | _, .ofAtom a => a.value env
  | _, .number n _ => Double.ofOrdinal false n.decimal.ordinal
  | _, .name letters => letters.value env.answer
  | _, .group a => a.value env
  | _, .call f a => f.callee.apply env.mode (a.value env)

/-- The plain text of an expression. -/
def spelling : {l : Level} → Expression l → List Char
  | _, .add a b => a.spelling ++ '+' :: b.spelling
  | _, .subtract a b => a.spelling ++ '-' :: b.spelling
  | _, .ofProduct a => a.spelling
  | _, .multiply a b => a.spelling ++ '*' :: b.spelling
  | _, .divide a b => a.spelling ++ '/' :: b.spelling
  | _, .ofSigned a => a.spelling
  | _, .negate a => '-' :: a.spelling
  | _, .ofPower a => a.spelling
  | _, .raise a b => a.spelling ++ '^' :: b.spelling
  | _, .ofFactor a => a.spelling
  | _, .percent a => a.spelling ++ ['%']
  | _, .ofAtom a => a.spelling
  | _, .number n _ => n.text
  | _, .name letters => letters.chars
  | _, .group a => '(' :: (a.spelling ++ [')'])
  | _, .call f a => f.spelling ++ '(' :: (a.spelling ++ [')'])

end Expression

/-! ## Ways to type a plain text -/

/-- The ways to type a plain text: the signs of the keys may stand for the plain ones, and blanks
may stand anywhere. -/
inductive Typing : (typed plain : List Char) → Prop where
  | done : Typing [] []
  | blank {b : Char} {typed plain : List Char} :
      isBlank b = true → Typing typed plain → Typing (b :: typed) plain
  | same (c : Char) {typed plain : List Char} :
      Typing typed plain → Typing (c :: typed) (c :: plain)
  | times {typed plain : List Char} : Typing typed plain → Typing ('×' :: typed) ('*' :: plain)
  | divided {typed plain : List Char} : Typing typed plain → Typing ('÷' :: typed) ('/' :: plain)
  | minus {typed plain : List Char} : Typing typed plain → Typing ('−' :: typed) ('-' :: plain)
  | pi {typed plain : List Char} :
      Typing typed plain → Typing ('π' :: typed) ('P' :: 'I' :: plain)

/-- A text writes an expression when it is a way to type the plain text of the expression. -/
def Expression.WrittenAs {l : Level} (e : Expression l) (text : String) : Prop :=
  Typing text.toList e.spelling

end Calculator
