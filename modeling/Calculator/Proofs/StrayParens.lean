-- Parentheses with no partner change nothing. An opening one at the front lies
-- at the bottom of the stack, and a run above it sends out the same tokens as
-- without it. A closing one at the end sends out early what the end of the
-- text would send out anyway, in the same order.
import Calculator.Evaluation
import Calculator.Proofs.ParenGroups
import Calculator.Proofs.PlainText
import Calculator.Proofs.PostfixOrder
import Calculator.Proofs.TokenScan

namespace Calculator

/-! ## Opening parentheses at the front -/

/-- The same run with one more opening parenthesis at the bottom of the stack. -/
def Waiting.padded (w : Waiting) : Waiting := ⟨w.stack ++ [.openParen], w.afterOperand⟩

namespace Waiting

variable (w : Waiting)

/-- A closing parenthesis either finds its partner above the padding, or it takes the padding for
its partner, and nothing of the padding is left. -/
theorem close_padded :
    w.padded.close = (w.close.1, w.close.2.padded) ∨ w.padded.close = w.close := by
  by_cases hmem : .openParen ∈ w.stack
  · obtain ⟨inside, below, hstack, hinside⟩ := List.eq_append_cons_of_mem hmem
    exact Or.inl (close_above hstack hinside (Or.inr noCall_openParen))
  · have hpadding : w.padded.stack = w.stack ++ .openParen :: [] := rfl
    rw [close_of_stack hpadding hmem, close_of_not_mem hmem]
    exact Or.inr (by simp [splitFunction])

/-- One step with the padding sends out the same tokens, and leaves the padding there or gone. -/
theorem step_padded (token : Token) :
    w.padded.step token = ((w.step token).1, (w.step token).2.padded) ∨
      w.padded.step token = w.step token := by
  by_cases hclose : token = .closeParen
  · subst hclose
    exact w.close_padded
  · exact Or.inl (step_above barrier_openParen fun h => absurd h hclose)

end Waiting

theorem postfixFrom_padded (w : Waiting) (ts : List Token) :
    postfixFrom w.padded ts = postfixFrom w ts := by
  induction ts generalizing w with
  | nil => simp [Waiting.flush, Waiting.padded]
  | cons token ts ih =>
    rw [postfixFrom_cons, postfixFrom_cons]
    rcases w.step_padded token with h | h
    · rw [h, ih]
    · rw [h]

theorem toPostfix_openParens (n : Nat) (ts : List Token) :
    toPostfix (List.replicate n .openParen ++ ts) = toPostfix ts := by
  induction n with
  | zero => rfl
  | succ n ih =>
    calc toPostfix (List.replicate (n + 1) .openParen ++ ts)
        = postfixFrom (Waiting.padded {}) (List.replicate n .openParen ++ ts) := rfl
      _ = toPostfix (List.replicate n .openParen ++ ts) := postfixFrom_padded {} _
      _ = toPostfix ts := ih

/-! ## Closing parentheses at the end -/

theorem postfixFrom_closeParens (m : Nat) (w : Waiting) :
    postfixFrom w (List.replicate m .closeParen) = w.flush := by
  induction m generalizing w with
  | zero => rfl
  | succ m ih =>
    rw [List.replicate_succ, postfixFrom_cons, ih]
    exact w.flush_close

theorem postfixFrom_append_closeParens (m : Nat) (w : Waiting) (ts : List Token) :
    postfixFrom w (ts ++ List.replicate m .closeParen) = postfixFrom w ts := by
  induction ts generalizing w with
  | nil => exact postfixFrom_closeParens m w
  | cons token ts ih => rw [List.cons_append, postfixFrom_cons, postfixFrom_cons, ih]

/-! ## The tokens and the text -/

theorem toPostfix_parens (ts : List Token) (n m : Nat) :
    toPostfix (List.replicate n .openParen ++ ts ++ List.replicate m .closeParen) =
      toPostfix ts := by
  rw [List.append_assoc, toPostfix_openParens]
  exact postfixFrom_append_closeParens m {} ts

theorem scan_closeParens (m : Nat) :
    Token.scan (List.replicate m ')') = List.replicate m .closeParen := by
  induction m with
  | zero => simp [Token.scan]
  | succ m ih =>
    rw [List.replicate_succ, Token.scan_sign rfl, ih]
    rfl

theorem scan_openParens (n : Nat) (rest : List Char) :
    Token.scan (List.replicate n '(' ++ rest) =
      List.replicate n .openParen ++ Token.scan rest := by
  induction n with
  | zero => rfl
  | succ n ih =>
    rw [List.replicate_succ, List.cons_append, Token.scan_sign rfl, ih]
    rfl

theorem stopsAt_closeParens {p : Char → Bool} (h : p ')' = false) (m : Nat) :
    StopsAt p (List.replicate m ')') := by
  cases m with
  | zero => exact stopsAt_nil
  | succ m => exact stopsAt_cons h

theorem tokenize_parens (text : String) (n m : Nat) :
    tokenize (String.ofList (List.replicate n '(') ++ text ++
        String.ofList (List.replicate m ')')) =
      List.replicate n .openParen ++ tokenize text ++ List.replicate m .closeParen := by
  simp only [tokenize, String.toList_append, String.toList_ofList, List.append_assoc]
  rw [scan_openParens, Token.scan_append (stopsAt_closeParens rfl m) (stopsAt_closeParens rfl m),
    scan_closeParens]

theorem plain_parens (text : String) (n m : Nat) :
    plain (String.ofList (List.replicate n '(') ++ text ++ String.ofList (List.replicate m ')')) =
      String.ofList (List.replicate n '(') ++ plain text ++
        String.ofList (List.replicate m ')') := by
  have hplain : ∀ (k : Nat) (c : Char), plainGlyph c = [c] → IsPlain (List.replicate k c) := by
    intro k c hc d hd
    rw [List.eq_of_mem_replicate hd]
    exact hc
  have hopen := (hplain n '(' (by decide)).flatMap_eq
  have hclose := (hplain m ')' (by decide)).flatMap_eq
  rw [plain_append, plain_append]
  simp only [plain, String.toList_ofList, hopen, hclose]

/-- Opening parentheses in front and closing ones behind change neither the postfix order of a row
nor the value or the error of a text with something to read. -/
theorem stray_parentheses_change_nothing :
    (∀ (ts : List Token) (n m : Nat),
      toPostfix (List.replicate n .openParen ++ ts ++ List.replicate m .closeParen) =
        toPostfix ts) ∧
    ∀ (env : Environment) (text : String) (n m : Nat), plain text ≠ "" →
      evaluate env (String.ofList (List.replicate n '(') ++ text ++
        String.ofList (List.replicate m ')')) = evaluate env text := by
  refine ⟨toPostfix_parens, ?_⟩
  intro env text n m hne
  have hne' : String.ofList (List.replicate n '(') ++ plain text ++
      String.ofList (List.replicate m ')') ≠ "" := by
    simp only [ne_eq, String.append_eq_empty_iff]
    rintro ⟨⟨_, h⟩, _⟩
    exact hne h
  simp only [evaluate, plain_parens]
  rw [if_neg hne', if_neg hne, tokenize_parens, toPostfix_parens]

theorem a_group_that_never_closes_closes_at_the_end :
    plain "2 × (3 + 4" ≠ "" ∧ evaluate {} "2 × (3 + 4)" = evaluate {} "2 × (3 + 4" :=
  ⟨by decide, stray_parentheses_change_nothing.2 {} "2 × (3 + 4" 0 1 (by decide)⟩

end Calculator
