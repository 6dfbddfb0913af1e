-- What the stack of waiting tokens does with an operator that arrives: it
-- sends out the tokens that come before the operator, and stops at the first
-- one that does not.
import Calculator.Postfix

namespace Calculator

/-! ## The top of the stack -/

/-- The first of the tokens to come sends out a waiting token of this strength: nothing comes, or
a closing parenthesis, or an operator that groups to the left and binds no more strongly. -/
def Sends (strength : Nat) : List Token → Prop
  | [] => True
  | .closeParen :: _ => True
  | .operator sign :: _ =>
    ∃ precedence, precedenceOfSign? sign = some (precedence, .left) ∧ 10 * precedence ≤ strength
  | _ => False

/-- The waiting token on top, if there is one, is weaker than this strength. A token with no
strength is weaker than any. -/
def Below (strength : Nat) (stack : List Token) : Prop :=
  ∀ top ∈ stack.head?, ∀ s, top.strength? = some s → s < strength

theorem Sends.mono {a b : Nat} {rest : List Token} (h : Sends a rest) (hab : a ≤ b) :
    Sends b rest := by
  cases rest with
  | nil => trivial
  | cons token rest =>
    cases token with
    | closeParen => trivial
    | operator sign =>
      obtain ⟨precedence, hp, hle⟩ := h
      exact ⟨precedence, hp, Nat.le_trans hle hab⟩
    | _ => exact h.elim

theorem precedence_le {sign : Char} {precedence : Nat} {side : Associativity}
    (h : precedenceOfSign? sign = some (precedence, side)) : precedence ≤ 4 := by
  obtain ⟨operator, -, hop⟩ := Option.bind_eq_some_iff.mp h
  cases operator <;> cases hop <;> decide

section

variable {stack rest : List Token}

theorem below_cons {token : Token} {s strength : Nat} (h : token.strength? = some s)
    (hlt : s < strength) : Below strength (token :: stack) := by
  intro top htop s' hs'
  simp only [List.head?_cons, Option.mem_def, Option.some.injEq] at htop
  subst htop
  rw [h] at hs'
  cases hs'
  exact hlt

theorem below_openParen {strength : Nat} : Below strength (.openParen :: stack) := by
  intro top htop s hs
  simp only [List.head?_cons, Option.mem_def, Option.some.injEq] at htop
  subst htop
  cases hs

theorem below_nil {strength : Nat} : Below strength [] := by
  intro top htop
  cases htop

theorem Below.mono {a b : Nat} (h : Below a stack) (hab : a ≤ b) : Below b stack := by
  intro top htop s hs
  exact Nat.lt_of_lt_of_le (h top htop s hs) hab

theorem Below.takeWhile_eq {strength : Nat} {first : Token → Bool} (h : Below strength stack)
    (hfirst : ∀ token, first token = true → ∃ s, token.strength? = some s ∧ strength ≤ s) :
    stack.takeWhile first = [] ∧ stack.dropWhile first = stack := by
  cases stack with
  | nil => exact ⟨rfl, rfl⟩
  | cons top below =>
    have hno : first top = false := by
      cases hf : first top with
      | false => rfl
      | true =>
        obtain ⟨s, hs, hle⟩ := hfirst top hf
        have := h top (by simp) s hs
        omega
    simp [hno]

/-- The strongest token is a power. -/
theorem below_of_power_lt {strength : Nat} (h : 40 < strength) : Below strength stack := by
  intro top _ s hs
  suffices s ≤ 40 by omega
  cases top with
  | operator sign =>
    obtain ⟨⟨precedence, side⟩, hsign, rfl⟩ := Option.map_eq_some_iff.mp hs
    have hle := precedence_le hsign
    show 10 * precedence ≤ 40
    omega
  | negate =>
    cases hs
    decide
  | _ => cases hs

/-! ## An operator that arrives -/

namespace Waiting

variable {w : Waiting} {sign : Char}

theorem step_minus (h : w.afterOperand = false) :
    w.step (.operator '-') = ([], w.hold .negate) := if_pos ⟨rfl, h⟩

theorem step_operator (h : ¬ (sign = '-' ∧ w.afterOperand = false)) :
    w.step (.operator sign) = w.holdOperator sign := if_neg h

end Waiting

/-- The least strength that an operator sends out. -/
def leastSent (precedence : Nat) : Associativity → Nat
  | .left => 10 * precedence
  | .right => 10 * precedence + 1

theorem comesFirst_iff {precedence : Nat} {side : Associativity} {token : Token} :
    comesFirst precedence side token = true ↔
      ∃ s, token.strength? = some s ∧ leastSent precedence side ≤ s := by
  unfold comesFirst
  cases token.strength? with
  | none => simp
  | some s =>
    cases side with
    | left => simp [leastSent]
    | right =>
      simp only [decide_eq_true_eq, Option.some.injEq, exists_eq_left', leastSent]
      exact Nat.lt_iff_add_one_le

/-- An operator waits on top of a token that it does not send out. -/
theorem postfixFrom_operator {sign : Char} {precedence : Nat} {side : Associativity}
    (hsign : precedenceOfSign? sign = some (precedence, side))
    (hbelow : Below (leastSent precedence side) stack) :
    postfixFrom ⟨stack, true⟩ (.operator sign :: rest) =
      postfixFrom ⟨.operator sign :: stack, false⟩ rest := by
  obtain ⟨htake, hdrop⟩ := hbelow.takeWhile_eq fun _ => comesFirst_iff.mp
  simp [Waiting.step, Waiting.holdOperator, Waiting.hold, hsign, htake, hdrop]

/-- A token that the tokens to come send out goes out first. -/
theorem postfixFrom_sends {token : Token} {s : Nat} (hs : token.strength? = some s)
    (h : Sends s rest) :
    postfixFrom ⟨token :: stack, true⟩ rest = token :: postfixFrom ⟨stack, true⟩ rest := by
  have hparen : token ≠ .openParen := by
    rintro rfl
    cases hs
  cases rest with
  | nil => simp [Waiting.flush, hparen]
  | cons next rest =>
    cases next with
    | closeParen => simp [Waiting.step, Waiting.close, hparen]
    | operator sign =>
      obtain ⟨precedence, hsign, hle⟩ := h
      have hfirst : comesFirst precedence .left token = true :=
        comesFirst_iff.mpr ⟨s, hs, hle⟩
      simp [Waiting.step, Waiting.holdOperator, hsign, hfirst]
    | _ => exact h.elim

end

/-! ## A parenthesis that closes -/

/-- What waits outside the group that closes, if anything does, starts with its opening
parenthesis. -/
theorem dropWhile_openParen (stack : List Token) :
    stack.dropWhile (· ≠ .openParen) = [] ∨
      ∃ below, stack.dropWhile (· ≠ .openParen) = .openParen :: below := by
  induction stack with
  | nil => exact Or.inl rfl
  | cons top below ih =>
    by_cases htop : top = .openParen
    · exact Or.inr ⟨below, by simp [htop]⟩
    · rw [List.dropWhile_cons_of_pos (by simpa using htop)]
      exact ih

/-- No function waits on top of the stack for its parenthesis. -/
def NoCall (stack : List Token) : Prop := ∀ text under, stack ≠ .function text :: under

section

variable {stack rest : List Token} {afterOperand : Bool}

theorem noCall_nil : NoCall [] := by
  rintro text under ⟨⟩

theorem noCall_operator {sign : Char} : NoCall (.operator sign :: stack) := by
  rintro text under ⟨⟩

theorem noCall_negate : NoCall (.negate :: stack) := by
  rintro text under ⟨⟩

theorem noCall_openParen : NoCall (.openParen :: stack) := by
  rintro text under ⟨⟩

theorem NoCall.splitFunction_eq (h : NoCall stack) : Waiting.splitFunction stack = ([], stack) := by
  unfold Waiting.splitFunction
  split
  · rename_i text under
    exact absurd rfl (h text under)
  · rfl

/-- What lies at the bottom, and is no function, takes no part when a function is split off. -/
theorem NoCall.splitFunction_append {bottom : List Token} (h : NoCall bottom) :
    Waiting.splitFunction (stack ++ bottom) =
      ((Waiting.splitFunction stack).1, (Waiting.splitFunction stack).2 ++ bottom) := by
  cases stack with
  | nil => exact h.splitFunction_eq
  | cons top below => cases top <;> rfl

theorem postfixFrom_closeGroup (h : NoCall stack) :
    postfixFrom ⟨.openParen :: stack, afterOperand⟩ (.closeParen :: rest) =
      postfixFrom ⟨stack, true⟩ rest := by
  simp [Waiting.step, Waiting.close, h.splitFunction_eq]

theorem postfixFrom_closeCall {text : String} :
    postfixFrom ⟨.openParen :: .function text :: stack, afterOperand⟩ (.closeParen :: rest) =
      .function text :: postfixFrom ⟨stack, true⟩ rest := by
  simp [Waiting.step, Waiting.close, Waiting.splitFunction]

end

end Calculator
