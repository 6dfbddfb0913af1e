-- Letter case never matters. A text in small letters goes through the lexer, the
-- postfix order and the evaluation as the text itself does, and only the name of
-- an unknown function comes out in small letters.
import Calculator.Proofs.ErrorCauses
import Calculator.Proofs.EnvironmentUse
import Calculator.Proofs.SmallLetters

namespace Calculator

/-! ## Texts that differ in letter case -/

/-- A text with the case of some of its letters changed. Only ASCII letters have a case here. -/
def Recased (s t : String) : Prop :=
  List.Forall₂ (fun c d => d = c ∨ d = c.toLower ∨ d = c.toUpper) s.toList t.toList

theorem recased_char_iff {c d : Char} :
    d = c ∨ d = c.toLower ∨ d = c.toUpper ↔ c.toLower = d.toLower := by
  constructor
  · rintro (rfl | rfl | rfl)
    · rfl
    · simp
    · simp
  · intro h
    rcases eq_or_eq_toUpper_of_toLower h.symm with hd | hd
    · exact Or.inr (Or.inl hd)
    · rw [Char.toUpper_toLower_eq_toUpper] at hd
      exact Or.inr (Or.inr hd)

theorem toLower_comp_toLower : Char.toLower ∘ Char.toLower = Char.toLower := by
  funext c
  simp

theorem toList_toLower (text : String) : text.toLower.toList = text.toList.map Char.toLower := by
  simp [String.toLower]

theorem recased_iff {s t : String} : Recased s t ↔ s.toLower = t.toLower := by
  unfold Recased
  simp only [recased_char_iff]
  rw [← String.toList_inj, toList_toLower, toList_toLower, ← List.forall₂_eq_eq_eq,
    List.forall₂_map_left_iff, List.forall₂_map_right_iff]

/-! ## Postfix order -/

theorem Token.strength?_toLower (t : Token) : t.toLower.strength? = t.strength? := by
  cases t <;> rfl

theorem Token.toLower_eq_openParen_iff {t : Token} : t.toLower = .openParen ↔ t = .openParen := by
  cases t <;> simp [toLower]

namespace Waiting

/-- The tokens that wait, in small letters. -/
def toLower (w : Waiting) : Waiting := ⟨w.stack.map Token.toLower, w.afterOperand⟩

variable (w : Waiting)

theorem holdOperator_toLower (sign : Char) :
    w.toLower.holdOperator sign =
      ((w.holdOperator sign).1.map Token.toLower, (w.holdOperator sign).2.toLower) := by
  unfold holdOperator
  cases precedenceOfSign? sign with
  | none => rfl
  | some power =>
    obtain ⟨precedence, side⟩ := power
    have hfirst : ∀ t : Token,
        comesFirst precedence side t.toLower = comesFirst precedence side t := by
      intro t
      unfold comesFirst
      rw [t.strength?_toLower]
    simp only [toLower, hold, takeWhile_map_of_eq hfirst, dropWhile_map_of_eq hfirst,
      List.map_cons]
    rfl

theorem splitFunction_toLower (stack : List Token) :
    splitFunction (stack.map Token.toLower) =
      ((splitFunction stack).1.map Token.toLower, (splitFunction stack).2.map Token.toLower) := by
  cases stack with
  | nil => rfl
  | cons top below => cases top <;> rfl

theorem close_toLower :
    w.toLower.close = (w.close.1.map Token.toLower, w.close.2.toLower) := by
  have hopen : ∀ t : Token, decide (t.toLower ≠ .openParen) = decide (t ≠ .openParen) := by
    intro t
    simp [Token.toLower_eq_openParen_iff]
  have htake := takeWhile_map_of_eq (f := Token.toLower) (p := fun t => decide (t ≠ .openParen))
    hopen w.stack
  have hdrop := dropWhile_map_of_eq (f := Token.toLower) (p := fun t => decide (t ≠ .openParen))
    hopen w.stack
  simp only [close, toLower]
  rw [htake, hdrop, ← List.map_drop, splitFunction_toLower, List.map_append]

theorem step_toLower (t : Token) :
    w.toLower.step t.toLower = ((w.step t).1.map Token.toLower, (w.step t).2.toLower) := by
  cases t with
  | closeParen => exact w.close_toLower
  | operator sign =>
    by_cases hminus : sign = '-' ∧ w.afterOperand = false
    · obtain ⟨rfl, hdue⟩ := hminus
      rw [step_minus hdue]
      exact step_minus hdue
    · rw [step_operator hminus]
      exact (step_operator (w := w.toLower) hminus).trans (w.holdOperator_toLower sign)
  | _ => rfl

theorem flush_toLower : w.toLower.flush = w.flush.map Token.toLower := by
  simp [flush, toLower, List.filter_map, Function.comp_def, Token.toLower_eq_openParen_iff]

end Waiting

theorem postfixFrom_toLower (ts : List Token) (w : Waiting) :
    postfixFrom w.toLower (ts.map Token.toLower) = (postfixFrom w ts).map Token.toLower := by
  induction ts generalizing w with
  | nil => exact w.flush_toLower
  | cons t ts ih =>
    rw [List.map_cons, postfixFrom_cons, postfixFrom_cons, w.step_toLower, ih, List.map_append]

theorem toPostfix_toLower (ts : List Token) :
    toPostfix (ts.map Token.toLower) = (toPostfix ts).map Token.toLower :=
  postfixFrom_toLower ts {}

/-! ## Values -/

theorem Double.ofText?_toLower (text : String) : ofText? text.toLower = ofText? text := by
  unfold ofText?
  simp only [toList_toLower, Numeral.scanSign_map_toLower, List.map_map, toLower_comp_toLower,
    Numeral.scan_map_toLower]
  cases Numeral.scan (Numeral.scanSign text.toList).2 with
  | none => rfl
  | some found =>
    obtain ⟨n, rest⟩ := found
    cases rest with
    | nil => simp only [Option.map_some, List.map_nil, n.decimal_toLower]
    | cons c rest => rfl

theorem NamedFunction.ofName?_toLower (name : String) : ofName? name.toLower = ofName? name := by
  unfold ofName? folded
  rw [toList_toLower, List.map_map, toLower_comp_toLower]

theorem Constant.capital_toLower (c : Char) : capital c.toLower = capital c := by
  by_cases halpha : c.isAlpha = true
  · have hlower : c.toLower.isAlpha = true := by rw [Char.isAlpha_toLower_eq_isAlpha, halpha]
    rw [capital_of_isAlpha halpha, capital_of_isAlpha hlower, Char.toUpper_toLower_eq_toUpper]
  · rw [(toLower_eq_iff (by simpa using halpha)).mpr rfl]

theorem Constant.value_toLower (answer : Float) (name : String) :
    value answer name.toLower = value answer name := by
  have hcapitals : name.toLower.toList.map capital = name.toList.map capital := by
    rw [toList_toLower, List.map_map]
    exact List.map_congr_left fun c _ => capital_toLower c
  simp only [value, hcapitals]

/-- An error with the text that it names in small letters. -/
def EvalError.toLower : EvalError → EvalError
  | invalidNumber text => invalidNumber text.toLower
  | unknownFunction name => unknownFunction name.toLower
  | cause => cause

namespace Operands

variable (operands : Operands)

/-- A missing operand has no letters. -/
theorem unary_mapError (f : Float → Float) :
    (operands.unary f).mapError EvalError.toLower = operands.unary f := by
  cases operands <;> rfl

theorem binary_mapError (f : Float → Float → Float) :
    (operands.binary f).mapError EvalError.toLower = operands.binary f := by
  match operands with
  | [] => rfl
  | [_] => rfl
  | _ :: _ :: _ => rfl

theorem combine_mapError (op : Operator) :
    (operands.combine op).mapError EvalError.toLower = operands.combine op := by
  cases op with
  | separate => rfl
  | _ => exact operands.binary_mapError _

theorem single_mapError : operands.single.mapError EvalError.toLower = operands.single := by
  match operands with
  | [] => rfl
  | [_] => rfl
  | _ :: _ :: _ => rfl

end Operands

namespace Environment

variable (env : Environment)

theorem step_toLower (operands : Operands) (t : Token) :
    env.step operands t.toLower = (env.step operands t).mapError EvalError.toLower := by
  cases t with
  | number text =>
    simp only [Token.toLower, step, Double.ofText?_toLower]
    cases Double.ofText? text <;> rfl
  | name text =>
    simp only [Token.toLower, step, Constant.value_toLower]
    rfl
  | valueOf text =>
    simp only [Token.toLower, step, Constant.value_toLower]
    rfl
  | function text =>
    simp only [Token.toLower, step, NamedFunction.ofName?_toLower]
    cases NamedFunction.ofName? text with
    | none => rfl
    | some f => exact (operands.unary_mapError _).symm
  | operator sign =>
    simp only [Token.toLower, step]
    cases Operator.ofSign? sign with
    | none => rfl
    | some op => exact (operands.combine_mapError op).symm
  | percent => exact (operands.unary_mapError _).symm
  | negate => exact (operands.unary_mapError _).symm
  | openParen => rfl
  | closeParen => rfl

theorem run_toLower (ts : List Token) (operands : Operands) :
    env.run operands (ts.map Token.toLower) =
      (env.run operands ts).mapError EvalError.toLower := by
  induction ts generalizing operands with
  | nil => rfl
  | cons t ts ih =>
    simp only [List.map_cons, run, env.step_toLower operands t]
    cases env.step operands t with
    | ok next => exact ih next
    | error cause => rfl

end Environment

theorem evaluatePostfix_toLower (env : Environment) (ts : List Token) :
    evaluatePostfix env (ts.map Token.toLower) =
      (evaluatePostfix env ts).mapError EvalError.toLower := by
  unfold evaluatePostfix
  rw [env.run_toLower]
  cases env.run [] ts with
  | ok operands => exact operands.single_mapError.symm
  | error cause => rfl

/-! ## Texts -/

theorem map_toLower_plainGlyph (c : Char) :
    (plainGlyph c.toLower).map Char.toLower = (plainGlyph c).map Char.toLower := by
  by_cases halpha : c.isAlpha = true
  · have hlower : c.toLower.isAlpha = true := by rw [Char.isAlpha_toLower_eq_isAlpha, halpha]
    rw [plainGlyph_of_isAlpha halpha, plainGlyph_of_isAlpha hlower]
    simp
  · rw [(toLower_eq_iff (by simpa using halpha)).mpr rfl]

/-- The sign for pi is no letter, and its plain form is the same in both texts. -/
theorem Recased.plain {s t : String} (h : Recased s t) : Recased (plain s) (plain t) := by
  have hplain : ∀ text : String, (Calculator.plain text).toLower.toList =
      text.toLower.toList.flatMap fun c => (plainGlyph c).map Char.toLower := by
    intro text
    rw [toList_toLower, toList_toLower, toList_plain, List.map_flatMap, List.flatMap_map]
    congr 1
    funext c
    exact (map_toLower_plainGlyph c).symm
  apply recased_iff.mpr
  apply String.toList_inj.mp
  rw [hplain, hplain, recased_iff.mp h]

theorem Recased.plain_eq_empty_iff {s t : String} (h : Recased s t) :
    Calculator.plain s = "" ↔ Calculator.plain t = "" := by
  have hlength := h.plain.length_eq
  rw [← String.toList_eq_nil_iff, ← String.toList_eq_nil_iff, ← List.length_eq_zero_iff,
    ← List.length_eq_zero_iff, hlength]

theorem Recased.tokenize_eq {s t : String} (h : Recased s t) :
    (tokenize s).map Token.toLower = (tokenize t).map Token.toLower := by
  rw [← tokenize_toLower, ← tokenize_toLower, recased_iff.mp h]

theorem Recased.evaluate_mapError {s t : String} (h : Recased s t) (env : Environment) :
    (evaluate env s).mapError EvalError.toLower = (evaluate env t).mapError EvalError.toLower := by
  have hvalue : (evaluatePostfix env (toPostfix (tokenize (Calculator.plain s)))).mapError
        EvalError.toLower =
      (evaluatePostfix env (toPostfix (tokenize (Calculator.plain t)))).mapError
        EvalError.toLower := by
    rw [← evaluatePostfix_toLower, ← evaluatePostfix_toLower, ← toPostfix_toLower,
      ← toPostfix_toLower, h.plain.tokenize_eq]
  unfold evaluate
  by_cases hempty : Calculator.plain s = ""
  · rw [if_pos hempty, if_pos (h.plain_eq_empty_iff.mp hempty)]
  · rw [if_neg hempty, if_neg fun hempty' => hempty (h.plain_eq_empty_iff.mpr hempty')]
    revert hvalue
    cases evaluatePostfix env (toPostfix (tokenize (Calculator.plain s))) with
    | ok v =>
      cases evaluatePostfix env (toPostfix (tokenize (Calculator.plain t))) with
      | ok w =>
        intro hvalue
        cases hvalue
        rfl
      | error cause => exact fun hvalue => by cases hvalue
    | error cause =>
      cases evaluatePostfix env (toPostfix (tokenize (Calculator.plain t))) with
      | ok w => exact fun hvalue => by cases hvalue
      | error cause' => exact id

/-! ## The law -/

/-- Errors that are the same in small letters are the same, unless they name a text. -/
theorem EvalError.eq_of_toLower_eq {a b : EvalError} (h : a.toLower = b.toLower)
    (hnumber : ∀ text, a ≠ .invalidNumber text) :
    a = b ∨ ∃ f g, a = .unknownFunction f ∧ b = .unknownFunction g ∧ Recased f g := by
  cases a with
  | invalidNumber text => exact absurd rfl (hnumber text)
  | unknownFunction f =>
    cases b with
    | unknownFunction g =>
      simp only [toLower, unknownFunction.injEq] at h
      exact Or.inr ⟨f, g, rfl, rfl, recased_iff.mpr h⟩
    | _ => cases h
  | _ =>
    cases b <;> cases h
    exact Or.inl rfl

/-- A text with other letter case has the same value or the same error, except that an unknown
function is named as it is typed. -/
theorem letter_case_never_matters {s t : String} (h : Recased s t) (env : Environment) :
    (∃ v, evaluate env s = .ok v ∧ evaluate env t = .ok v) ∨
      (∃ cause, evaluate env s = .error cause ∧ evaluate env t = .error cause) ∨
      ∃ f g, evaluate env s = .error (.unknownFunction f) ∧
        evaluate env t = .error (.unknownFunction g) ∧ Recased f g := by
  have hsame := h.evaluate_mapError env
  cases hs : evaluate env s with
  | ok v =>
    cases ht : evaluate env t with
    | ok w =>
      rw [hs, ht] at hsame
      cases hsame
      exact Or.inl ⟨v, rfl, rfl⟩
    | error cause =>
      rw [hs, ht] at hsame
      cases hsame
  | error a =>
    cases ht : evaluate env t with
    | ok w =>
      rw [hs, ht] at hsame
      cases hsame
    | error b =>
      rw [hs, ht] at hsame
      have herror : a.toLower = b.toLower := Except.error.inj hsame
      have hnumber : ∀ text, a ≠ .invalidNumber text := by
        rintro text rfl
        exact evaluate_ne_invalidNumber text hs
      rcases EvalError.eq_of_toLower_eq herror hnumber with rfl | ⟨f, g, rfl, rfl, hnames⟩
      · exact Or.inr (Or.inl ⟨a, rfl, rfl⟩)
      · exact Or.inr (Or.inr ⟨f, g, rfl, rfl, hnames⟩)

/-- The marker of an exponent, a known function, a constant, an unknown function and the last answer
all change their case. -/
theorem an_unknown_function_keeps_its_own_letters :
    let s := "1e2*Sin(pi)-Foo(aNS)"
    let t := "1E2*sIN(Pi)-fOO(Ans)"
    Recased s t ∧
      ((∃ v, evaluate {} s = .ok v ∧ evaluate {} t = .ok v) ∨
        (∃ cause, evaluate {} s = .error cause ∧ evaluate {} t = .error cause) ∨
        ∃ f g, evaluate {} s = .error (.unknownFunction f) ∧
          evaluate {} t = .error (.unknownFunction g) ∧ Recased f g) := by
  intro s t
  have hrecased : Recased s t := by
    simp [Recased, s, t]
  exact ⟨hrecased, letter_case_never_matters hrecased {}⟩

end Calculator
