-- What is typed for an expression tree is worth what the tree is worth. The
-- text is made plain, cut into the tokens of the tree, put in the postfix order
-- of the tree, and worked out to the value of the tree.
import Calculator.Expression
import Calculator.Proofs.NumberText
import Calculator.Proofs.OperatorStack
import Calculator.Proofs.PlainText
import Calculator.Proofs.SmallLetters
import Calculator.Proofs.TokenScan

namespace Calculator

/-! ## The tokens of a tree, typed and in postfix order -/

/-- The name of a function, as its token has it. -/
def Caller.text : Caller → String
  | .root => "sqrt"
  | .named letters _ _ => String.ofList letters.chars

theorem Caller.ofName?_text (f : Caller) : NamedFunction.ofName? f.text = some f.callee := by
  cases f with
  | root => decide
  | named letters callee known => exact known

/-- The evaluation reads a name as the tree does. -/
theorem Letters.value_eq (letters : Letters) (answer : Float) :
    Constant.value answer (String.ofList letters.chars) = letters.value answer := by
  have hword : ∀ word : List Char, letters.chars.map Constant.capital = word.map Char.toUpper ↔
      letters.chars.map Char.toLower = word.map Char.toLower :=
    Constant.map_capital_eq_iff letters.isAlpha_of_mem
  have hgreek : letters.chars.map Constant.capital ≠ ['Π'] := by
    intro h
    have hsmall : letters.chars.map Char.toLower = ['Π'] := (hword ['Π']).mp h
    obtain ⟨c, hc, hpi⟩ := List.map_eq_singleton_iff.mp hsmall
    have halpha : c.toLower.isAlpha = true := by
      rw [Char.isAlpha_toLower_eq_isAlpha]
      exact letters.isAlpha_of_mem c (by simp [hc])
    rw [hpi] at halpha
    cases halpha
  have hanswer : letters.chars.map Constant.capital = ['A', 'N', 'S'] ↔
      letters.chars.map Char.toLower = ['a', 'n', 's'] := hword ['a', 'n', 's']
  have hpi : letters.chars.map Constant.capital = ['P', 'I'] ↔
      letters.chars.map Char.toLower = ['p', 'i'] := hword ['p', 'i']
  have he : letters.chars.map Constant.capital = ['E'] ↔
      letters.chars.map Char.toLower = ['e'] := hword ['e']
  simp only [Constant.value, Letters.value, String.toList_ofList, hanswer, hpi, he, hgreek,
    or_false]
  rfl

namespace Expression

/-- The tokens that are typed for an expression. -/
def tokens : {l : Level} → Expression l → List Token
  | _, .add a b => a.tokens ++ .operator '+' :: b.tokens
  | _, .subtract a b => a.tokens ++ .operator '-' :: b.tokens
  | _, .ofProduct a => a.tokens
  | _, .multiply a b => a.tokens ++ .operator '*' :: b.tokens
  | _, .divide a b => a.tokens ++ .operator '/' :: b.tokens
  | _, .ofSigned a => a.tokens
  | _, .negate a => .operator '-' :: a.tokens
  | _, .ofPower a => a.tokens
  | _, .raise a b => a.tokens ++ .operator '^' :: b.tokens
  | _, .ofFactor a => a.tokens
  | _, .percent a => a.tokens ++ [.percent]
  | _, .ofAtom a => a.tokens
  | _, .number n _ => [.number (String.ofList n.text)]
  | _, .name letters => [.name (String.ofList letters.chars)]
  | _, .group a => .openParen :: (a.tokens ++ [.closeParen])
  | _, .call f a => .function f.text :: .openParen :: (a.tokens ++ [.closeParen])

/-- The tokens of an expression with each operator after its operands. -/
def code : {l : Level} → Expression l → List Token
  | _, .add a b => a.code ++ b.code ++ [.operator '+']
  | _, .subtract a b => a.code ++ b.code ++ [.operator '-']
  | _, .ofProduct a => a.code
  | _, .multiply a b => a.code ++ b.code ++ [.operator '*']
  | _, .divide a b => a.code ++ b.code ++ [.operator '/']
  | _, .ofSigned a => a.code
  | _, .negate a => a.code ++ [.negate]
  | _, .ofPower a => a.code
  | _, .raise a b => a.code ++ b.code ++ [.operator '^']
  | _, .ofFactor a => a.code
  | _, .percent a => a.code ++ [.percent]
  | _, .ofAtom a => a.code
  | _, .number n _ => [.number (String.ofList n.text)]
  | _, .name letters => [.valueOf (String.ofList letters.chars)]
  | _, .group a => a.code
  | _, .call f a => a.code ++ [.function f.text]

/-! ## From the text to the tokens -/

/-- The lexer takes a text for these tokens, whatever follows that does not join the text. -/
def Lexes (text : List Char) (tokens : List Token) : Prop :=
  ∀ rest, StopsAt Token.joins rest → Token.scan (text ++ rest) = tokens ++ Token.scan rest

section

variable {left right : List Char} {leftTokens rightTokens : List Token}

theorem lexes_nil : Lexes [] [] := fun _ _ => rfl

theorem Lexes.sign {c : Char} (hright : Lexes right rightTokens)
    (hc : Numeral.joins c = false) : Lexes (c :: right) (Token.ofSign c :: rightTokens) := by
  intro rest h
  rw [List.cons_append, Token.scan_sign hc, hright rest h, List.cons_append]

theorem Lexes.between {c : Char} (hleft : Lexes left leftTokens) (hright : Lexes right rightTokens)
    (hc : Token.joins c = false) :
    Lexes (left ++ c :: right) (leftTokens ++ Token.ofSign c :: rightTokens) := by
  intro rest h
  have hjoins : Numeral.joins c = false := (Bool.or_eq_false_iff.mp hc).1
  have hstop : StopsAt Token.joins (c :: right ++ rest) := stopsAt_cons hc
  rw [List.append_assoc, hleft _ hstop, hright.sign hjoins rest h, List.append_assoc]

theorem Lexes.function {letters : Letters} (hright : Lexes right rightTokens) :
    Lexes (letters.chars ++ '(' :: right)
      (.function (String.ofList letters.chars) :: .openParen :: rightTokens) := by
  intro rest h
  rw [List.append_assoc, List.cons_append,
    Token.scan_function letters.ne_nil letters.isAlpha_of_mem, hright rest h]
  rfl

end

theorem lexes_spelling {l : Level} (e : Expression l) : Lexes e.spelling e.tokens := by
  induction e with
  | add a b iha ihb => exact iha.between ihb rfl
  | subtract a b iha ihb => exact iha.between ihb rfl
  | ofProduct a ih => exact ih
  | multiply a b iha ihb => exact iha.between ihb rfl
  | divide a b iha ihb => exact iha.between ihb rfl
  | ofSigned a ih => exact ih
  | negate a ih => exact ih.sign rfl
  | ofPower a ih => exact ih
  | raise a b iha ihb => exact iha.between ihb rfl
  | ofFactor a ih => exact ih
  | percent a ih => exact ih.between lexes_nil rfl
  | ofAtom a ih => exact ih
  | number n wellFormed =>
    intro rest h
    exact Token.scan_number wellFormed (Token.stopsAt_numeral h)
  | name letters =>
    intro rest h
    exact Token.scan_name letters.ne_nil letters.isAlpha_of_mem (Token.stopsAt_isAlpha h)
      (Token.ne_openParen h)
  | group a ih => exact (ih.between lexes_nil rfl).sign rfl
  | call f a ih =>
    have harguments : Lexes (a.spelling ++ [')']) (a.tokens ++ [.closeParen]) :=
      ih.between lexes_nil rfl
    cases f with
    | root => exact (harguments.sign rfl).sign rfl
    | named letters callee known => exact harguments.function

/-! ## From the tokens to the code -/

/-- The tokens to come let go of an expression of this level: they send out its weakest operator.
A factor has no operator to send out. -/
def Ends : Level → List Token → Prop
  | .sum, rest => Sends 20 rest
  | .product, rest => Sends 30 rest
  | .signed, rest => Sends 35 rest
  | .power, rest => Sends 35 rest
  | .factor, _ => True
  | .atom, _ => True

/-- No operator of an expression of this level sends out the top of the stack that was there
before it. -/
def Rests : Level → List Token → Prop
  | .sum, stack => Below 20 stack
  | .product, stack => Below 30 stack
  | _, _ => True

/-- These tokens are put in order as this code, above any stack that rests under an expression of
this level, when the tokens after them let go of it. -/
def Orders (l : Level) (tokens code : List Token) : Prop :=
  ∀ stack rest, Rests l stack → NoCall stack → Ends l rest →
    postfixFrom ⟨stack, false⟩ (tokens ++ rest) = code ++ postfixFrom ⟨stack, true⟩ rest

section

variable {left right leftCode rightCode : List Token} {sign : Char}

theorem strength_of_precedence {precedence : Nat} {side : Associativity}
    (h : precedenceOfSign? sign = some (precedence, side)) :
    (Token.operator sign).strength? = some (10 * precedence) :=
  Option.map_eq_some_iff.mpr ⟨_, h, rfl⟩

/-- An operator between two rows of tokens goes out after both. -/
theorem postfixFrom_between {precedence : Nat} {side : Associativity} {stack rest : List Token}
    (hsign : precedenceOfSign? sign = some (precedence, side))
    (hbelow : Below (leastSent precedence side) stack) (hends : Sends (10 * precedence) rest)
    (hleft : postfixFrom ⟨stack, false⟩ (left ++ .operator sign :: (right ++ rest)) =
      leftCode ++ postfixFrom ⟨stack, true⟩ (.operator sign :: (right ++ rest)))
    (hright : postfixFrom ⟨.operator sign :: stack, false⟩ (right ++ rest) =
      rightCode ++ postfixFrom ⟨.operator sign :: stack, true⟩ rest) :
    postfixFrom ⟨stack, false⟩ ((left ++ .operator sign :: right) ++ rest) =
      (leftCode ++ rightCode ++ [.operator sign]) ++ postfixFrom ⟨stack, true⟩ rest := by
  have hout : postfixFrom ⟨.operator sign :: stack, true⟩ rest =
      .operator sign :: postfixFrom ⟨stack, true⟩ rest :=
    postfixFrom_sends (strength_of_precedence hsign) hends
  calc postfixFrom ⟨stack, false⟩ ((left ++ .operator sign :: right) ++ rest)
      = leftCode ++ postfixFrom ⟨stack, true⟩ (.operator sign :: (right ++ rest)) := by
        rw [List.append_assoc, List.cons_append, hleft]
    _ = leftCode ++ (rightCode ++ postfixFrom ⟨.operator sign :: stack, true⟩ rest) := by
        rw [postfixFrom_operator hsign hbelow, hright]
    _ = (leftCode ++ rightCode ++ [.operator sign]) ++ postfixFrom ⟨stack, true⟩ rest := by
        rw [hout]
        simp only [List.append_assoc, List.cons_append, List.nil_append]

theorem Orders.sum (hsign : precedenceOfSign? sign = some (2, .left))
    (hleft : Orders .sum left leftCode) (hright : Orders .product right rightCode) :
    Orders .sum (left ++ .operator sign :: right) (leftCode ++ rightCode ++ [.operator sign]) := by
  intro stack rest hrests hcall hends
  refine postfixFrom_between hsign hrests hends ?_ ?_
  · exact hleft _ _ hrests hcall ⟨2, hsign, by omega⟩
  · refine hright _ _ ?_ noCall_operator (hends.mono (by omega))
    exact below_cons (strength_of_precedence hsign) (by omega)

theorem Orders.product (hsign : precedenceOfSign? sign = some (3, .left))
    (hleft : Orders .product left leftCode) (hright : Orders .signed right rightCode) :
    Orders .product (left ++ .operator sign :: right)
      (leftCode ++ rightCode ++ [.operator sign]) := by
  intro stack rest hrests hcall hends
  refine postfixFrom_between hsign hrests hends ?_ ?_
  · exact hleft _ _ hrests hcall ⟨3, hsign, by omega⟩
  · exact hright _ _ trivial noCall_operator (hends.mono (by omega))

theorem Orders.power (hsign : precedenceOfSign? sign = some (4, .right))
    (hleft : Orders .factor left leftCode) (hright : Orders .signed right rightCode) :
    Orders .power (left ++ .operator sign :: right)
      (leftCode ++ rightCode ++ [.operator sign]) := by
  intro stack rest hrests hcall hends
  refine postfixFrom_between hsign (below_of_power_lt (by decide)) (hends.mono (by omega)) ?_ ?_
  · exact hleft _ _ trivial hcall trivial
  · exact hright _ _ trivial noCall_operator hends

end

theorem orders_code {l : Level} (e : Expression l) : Orders l e.tokens e.code := by
  induction e with
  | add a b iha ihb => exact Orders.sum rfl iha ihb
  | subtract a b iha ihb => exact Orders.sum rfl iha ihb
  | ofProduct a ih =>
    intro stack rest hrests hcall hends
    exact ih stack rest (hrests.mono (by omega)) hcall (hends.mono (by omega))
  | multiply a b iha ihb => exact Orders.product rfl iha ihb
  | divide a b iha ihb => exact Orders.product rfl iha ihb
  | ofSigned a ih =>
    intro stack rest _ hcall hends
    exact ih stack rest trivial hcall (hends.mono (by omega))
  | negate a ih =>
    intro stack rest _ _ hends
    have hout : postfixFrom ⟨.negate :: stack, true⟩ rest =
        .negate :: postfixFrom ⟨stack, true⟩ rest := postfixFrom_sends rfl hends
    calc postfixFrom ⟨stack, false⟩ (.operator '-' :: a.tokens ++ rest)
        = postfixFrom ⟨.negate :: stack, false⟩ (a.tokens ++ rest) := rfl
      _ = a.code ++ (.negate :: postfixFrom ⟨stack, true⟩ rest) := by
          rw [ih _ _ trivial noCall_negate hends, hout]
      _ = (a.code ++ [.negate]) ++ postfixFrom ⟨stack, true⟩ rest := by
          simp only [List.append_assoc, List.cons_append, List.nil_append]
  | ofPower a ih => exact ih
  | raise a b iha ihb => exact Orders.power rfl iha ihb
  | ofFactor a ih => exact fun stack rest hrests hcall _ => ih stack rest hrests hcall trivial
  | percent a ih =>
    intro stack rest hrests hcall _
    simp only [tokens, code, List.append_assoc]
    rw [ih stack _ hrests hcall trivial]
    rfl
  | ofAtom a ih => exact ih
  | number n wellFormed => exact fun _ _ _ _ _ => rfl
  | name letters => exact fun _ _ _ _ _ => rfl
  | group a ih =>
    intro stack rest _ hcall _
    calc postfixFrom ⟨stack, false⟩ (.openParen :: (a.tokens ++ [.closeParen]) ++ rest)
        = postfixFrom ⟨.openParen :: stack, false⟩ (a.tokens ++ .closeParen :: rest) := by
          simp [Waiting.step, Waiting.hold]
      _ = a.code ++ postfixFrom ⟨.openParen :: stack, true⟩ (.closeParen :: rest) :=
          ih _ _ below_openParen noCall_openParen trivial
      _ = a.code ++ postfixFrom ⟨stack, true⟩ rest := by rw [postfixFrom_closeGroup hcall]
  | call f a ih =>
    intro stack rest _ _ _
    calc postfixFrom ⟨stack, false⟩
          (.function f.text :: .openParen :: (a.tokens ++ [.closeParen]) ++ rest)
        = postfixFrom ⟨.openParen :: .function f.text :: stack, false⟩
            (a.tokens ++ .closeParen :: rest) := by
          simp [Waiting.step, Waiting.hold]
      _ = a.code ++ postfixFrom ⟨.openParen :: .function f.text :: stack, true⟩
            (.closeParen :: rest) := ih _ _ below_openParen noCall_openParen trivial
      _ = a.code ++ [.function f.text] ++ postfixFrom ⟨stack, true⟩ rest := by
          rw [postfixFrom_closeCall, List.append_assoc]
          rfl

/-! ## From the code to the value -/

/-- This code leaves this value on top of the operands that were there before it. -/
def Computes (env : Environment) (code : List Token) (value : Float) : Prop :=
  ∀ operands rest, env.run operands (code ++ rest) = env.run (value :: operands) rest

section

variable {env : Environment} {leftCode rightCode : List Token} {token : Token} {a b value : Float}

theorem computes_singleton (h : ∀ operands, env.step operands token = .ok (value :: operands)) :
    Computes env [token] value := by
  intro operands rest
  rw [List.singleton_append, Environment.run, h]

theorem Computes.append_unary (ha : Computes env leftCode a)
    (h : ∀ operands, env.step (a :: operands) token = .ok (value :: operands)) :
    Computes env (leftCode ++ [token]) value := by
  intro operands rest
  rw [List.append_assoc, ha, List.singleton_append, Environment.run, h]

theorem Computes.append_binary (ha : Computes env leftCode a) (hb : Computes env rightCode b)
    (h : ∀ operands, env.step (b :: a :: operands) token = .ok (value :: operands)) :
    Computes env (leftCode ++ rightCode ++ [token]) value := by
  intro operands rest
  rw [List.append_assoc, List.append_assoc, ha, hb, List.singleton_append, Environment.run, h]

end

theorem computes_code (env : Environment) {l : Level} (e : Expression l) :
    Computes env e.code (e.value env) := by
  induction e with
  | add a b iha ihb => exact iha.append_binary ihb fun _ => rfl
  | subtract a b iha ihb => exact iha.append_binary ihb fun _ => rfl
  | ofProduct a ih => exact ih
  | multiply a b iha ihb => exact iha.append_binary ihb fun _ => rfl
  | divide a b iha ihb => exact iha.append_binary ihb fun _ => rfl
  | ofSigned a ih => exact ih
  | negate a ih => exact ih.append_unary fun _ => rfl
  | ofPower a ih => exact ih
  | raise a b iha ihb => exact iha.append_binary ihb fun _ => rfl
  | ofFactor a ih => exact ih
  | percent a ih => exact ih.append_unary fun _ => rfl
  | ofAtom a ih => exact ih
  | number n wellFormed =>
    apply computes_singleton
    intro operands
    simp only [Environment.step, Double.ofText?_text wellFormed]
    rfl
  | name letters =>
    apply computes_singleton
    intro operands
    simp only [Environment.step, letters.value_eq]
    rfl
  | group a ih => exact ih
  | call f a ih =>
    apply ih.append_unary
    intro operands
    simp only [Environment.step, f.ofName?_text]
    rfl

end Expression

/-! ## From the typed text to the plain text -/

theorem Letters.isPlain (letters : Letters) : IsPlain letters.chars :=
  fun c hc => plainGlyph_of_isAlpha (letters.isAlpha_of_mem c hc)

theorem Caller.isPlain_spelling (f : Caller) : IsPlain f.spelling := by
  cases f with
  | root => exact isPlain_cons rfl isPlain_nil
  | named letters callee known => exact letters.isPlain

theorem Typing.plain_eq {typed text : List Char} (h : Typing typed text) (htext : IsPlain text) :
    typed.flatMap plainGlyph = text := by
  induction h with
  | done => rfl
  | blank hb _ ih => rw [List.flatMap_cons, plainGlyph_of_isBlank hb, ih htext, List.nil_append]
  | same c _ ih => rw [List.flatMap_cons, htext.head, ih htext.tail, List.singleton_append]
  | times _ ih => rw [List.flatMap_cons, ih htext.tail]; rfl
  | divided _ ih => rw [List.flatMap_cons, ih htext.tail]; rfl
  | minus _ ih => rw [List.flatMap_cons, ih htext.tail]; rfl
  | pi _ ih => rw [List.flatMap_cons, ih htext.tail.tail]; rfl

namespace Expression

theorem isPlain_spelling {l : Level} (e : Expression l) : IsPlain e.spelling := by
  induction e with
  | add a b iha ihb => exact iha.append (isPlain_cons rfl ihb)
  | subtract a b iha ihb => exact iha.append (isPlain_cons rfl ihb)
  | ofProduct a ih => exact ih
  | multiply a b iha ihb => exact iha.append (isPlain_cons rfl ihb)
  | divide a b iha ihb => exact iha.append (isPlain_cons rfl ihb)
  | ofSigned a ih => exact ih
  | negate a ih => exact isPlain_cons rfl ih
  | ofPower a ih => exact ih
  | raise a b iha ihb => exact iha.append (isPlain_cons rfl ihb)
  | ofFactor a ih => exact ih
  | percent a ih => exact ih.append (isPlain_cons rfl isPlain_nil)
  | ofAtom a ih => exact ih
  | number n wellFormed => exact n.isPlain_text wellFormed
  | name letters => exact letters.isPlain
  | group a ih => exact isPlain_cons rfl (ih.append (isPlain_cons rfl isPlain_nil))
  | call f a ih =>
    exact f.isPlain_spelling.append
      (isPlain_cons rfl (ih.append (isPlain_cons rfl isPlain_nil)))

theorem spelling_ne_nil {l : Level} (e : Expression l) : e.spelling ≠ [] := by
  induction e with
  | number n wellFormed =>
    obtain ⟨c, cs, hcs, _⟩ := Numeral.exists_text_eq_cons wellFormed
    simp [spelling, hcs]
  | name letters => exact letters.ne_nil
  | _ => simp_all [spelling]

/-- However a tree is typed, the text has the value of the tree, and is refused only when that is
not finite. -/
theorem every_written_tree_has_its_own_value (env : Environment) (e : Expression .sum)
    (text : String) (h : e.WrittenAs text) :
    evaluate env text =
      if (e.value env).isFinite then .ok (e.value env) else .error .notFinite := by
  have hplain : plain text = String.ofList e.spelling := by
    rw [plain, Typing.plain_eq h e.isPlain_spelling]
  have hne : String.ofList e.spelling ≠ "" := by
    simpa using e.spelling_ne_nil
  have htokens : tokenize (String.ofList e.spelling) = e.tokens := by
    have := e.lexes_spelling [] stopsAt_nil
    simpa [tokenize, Token.scan] using this
  have hcode : toPostfix e.tokens = e.code := by
    have := e.orders_code [] [] below_nil noCall_nil trivial
    simpa [toPostfix, Waiting.flush] using this
  have hrun : env.run [] e.code = .ok [e.value env] := by
    have := e.computes_code env [] []
    rwa [List.append_nil] at this
  rw [evaluate, hplain, if_neg hne, htokens, hcode, evaluatePostfix, hrun]
  rfl

/-- A numeral of digits alone, as an atom. -/
def ofDigitRow (whole : List Char) (h : Numeral.IsDigits whole) (hne : whole ≠ []) :
    Expression .atom :=
  .number ⟨whole, none, none⟩ ⟨h, by simp [Numeral.IsDigits], by simpa using hne, by simp⟩

/-- A name, as an atom. -/
def ofLetterRow (chars : List Char) (hne : chars ≠ []) (h : chars.all Char.isAlpha = true) :
    Expression .atom :=
  .name ⟨chars, hne, List.all_eq_true.mp h⟩

/-- An atom as a signed term. -/
def signedAtom (a : Expression .atom) : Expression .signed := .ofPower (.ofFactor (.ofAtom a))

/-- The tree of `2×−50%×aNs + √(4)×PI − foo÷e`. -/
def namesAndSigns : Expression .sum :=
  let answer := ofLetterRow ['a', 'N', 's'] (by decide) rfl
  let pi := ofLetterRow ['P', 'I'] (by decide) rfl
  let unknown := ofLetterRow ['f', 'o', 'o'] (by decide) rfl
  let e := ofLetterRow ['e'] (by decide) rfl
  let two := ofDigitRow ['2'] (by decide) (by decide)
  let fifty := ofDigitRow ['5', '0'] (by decide) (by decide)
  let four := ofDigitRow ['4'] (by decide) (by decide)
  let half : Expression .signed := .negate (.ofPower (.ofFactor (.percent (.ofAtom fifty))))
  let root := .call .root (.ofProduct (.ofSigned (signedAtom four)))
  .subtract
    (.add
      (.ofProduct (.multiply (.multiply (.ofSigned (signedAtom two)) half) (signedAtom answer)))
      (.multiply (.ofSigned (signedAtom root)) (signedAtom pi)))
    (.divide (.ofSigned (signedAtom unknown)) (signedAtom e))

theorem namesAndSigns_written : namesAndSigns.WrittenAs "2×−50%×aNs + √(4)×π − foo÷e" :=
  .same '2' (.times (.minus (.same '5' (.same '0' (.same '%' (.times (.same 'a' (.same 'N'
    (.same 's' (.blank (by decide) (.same '+' (.blank (by decide) (.same '√' (.same '('
    (.same '4' (.same ')' (.times (.pi (.blank (by decide) (.minus (.blank (by decide)
    (.same 'f' (.same 'o' (.same 'o' (.divided (.same 'e' .done))))))))))))))))))))))))))

/-- With three as the last answer, the sum is `-3 + 2π - 0`. -/
theorem names_have_their_values_in_a_sum :
    evaluate ⟨.degrees, 3⟩ "2×−50%×aNs + √(4)×π − foo÷e" = .ok 3.2831853071795862 := by
  have hvalue : namesAndSigns.value ⟨.degrees, 3⟩ = 3.2831853071795862 := by decide +kernel
  rw [every_written_tree_has_its_own_value ⟨.degrees, 3⟩ namesAndSigns _ namesAndSigns_written,
    hvalue]
  decide +kernel

end Expression

end Calculator
