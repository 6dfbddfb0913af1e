-- A prefix minus that waits below everything else on the stack. When the tokens
-- to come let go of it at once, it is as good as taken. Whenever they let go of
-- it, it goes out once and finds an operand, so it is never the cause of an
-- error.
import Calculator.Proofs.DoubleBits
import Calculator.Proofs.ParenGroups
import Calculator.Proofs.RunShape

namespace Calculator

/-! ## A minus that is let go of at once -/

/-- Do these tokens let go of a prefix minus before anything else is worked out? Percent signs
belong to the operand. After them, the end, a closing parenthesis, a sum or a product lets go. -/
def releasesMinus : List Token → Bool
  | [] => true
  | .percent :: ts => releasesMinus ts
  | .closeParen :: _ => true
  | .operator sign :: _ => sign ∈ ['+', '-', '*', '/']
  | _ => false

theorem sends_of_mem {sign : Char} {ts : List Token} (h : sign ∈ ['+', '-', '*', '/']) :
    Sends negateStrength (.operator sign :: ts) := by
  simp only [List.mem_cons, List.not_mem_nil, or_false] at h
  rcases h with rfl | rfl | rfl | rfl
  · exact ⟨2, rfl, by decide⟩
  · exact ⟨2, rfl, by decide⟩
  · exact ⟨3, rfl, by decide⟩
  · exact ⟨3, rfl, by decide⟩

/-- When a minus waits and the tokens to come let go of it, it might as well have been taken at
once. -/
theorem run_negate (env : Environment) {ts : List Token} (h : releasesMinus ts = true) (a : Float)
    (operands : Operands) :
    env.run (a :: operands) (postfixFrom ⟨[.negate], true⟩ ts) =
      env.run (-a :: operands) (postfixFrom ⟨[], true⟩ ts) := by
  have hsends : ∀ b us, Sends negateStrength us →
      env.run (b :: operands) (postfixFrom ⟨[.negate], true⟩ us) =
        env.run (-b :: operands) (postfixFrom ⟨[], true⟩ us) := by
    intro b us hus
    rw [postfixFrom_sends rfl hus]
    rfl
  induction ts generalizing a with
  | nil => exact hsends a [] trivial
  | cons t ts ih =>
    cases t with
    | percent =>
      calc env.run (a :: operands) (postfixFrom ⟨[.negate], true⟩ (.percent :: ts))
          = env.run (a / 100 :: operands) (postfixFrom ⟨[.negate], true⟩ ts) := rfl
        _ = env.run (-(a / 100) :: operands) (postfixFrom ⟨[], true⟩ ts) := ih h (a / 100)
        _ = env.run (-a / 100 :: operands) (postfixFrom ⟨[], true⟩ ts) := by rw [Double.neg_div]
        _ = env.run (-a :: operands) (postfixFrom ⟨[], true⟩ (.percent :: ts)) := rfl
    | closeParen => exact hsends a _ trivial
    | operator sign => exact hsends a _ (sends_of_mem (of_decide_eq_true h))
    | _ => cases h

/-! ## A minus that waits -/

/-- The same run with a prefix minus below everything else. -/
def Waiting.overMinus (w : Waiting) : Waiting := ⟨w.stack ++ [.negate], w.afterOperand⟩

/-- One more element at the end of a list stays behind where the list is cut, or it belongs to the
front part with all the others. -/
theorem cut_append_singleton {α : Type} (p : α → Bool) (xs : List α) (x : α) :
    ((xs ++ [x]).takeWhile p = xs.takeWhile p ∧
        (xs ++ [x]).dropWhile p = xs.dropWhile p ++ [x]) ∨
      ((xs ++ [x]).takeWhile p = xs.takeWhile p ++ [x] ∧
        (xs ++ [x]).dropWhile p = [] ∧ xs.dropWhile p = []) := by
  induction xs with
  | nil =>
    by_cases hx : p x = true
    · exact Or.inr (by simp [hx])
    · exact Or.inl (by simp [hx])
  | cons y ys ih =>
    by_cases hy : p y = true
    · simpa [hy] using ih
    · exact Or.inl (by simp [hy])

namespace Waiting

variable (w : Waiting)

theorem holdOperator_overMinus (sign : Char) :
    w.overMinus.holdOperator sign = ((w.holdOperator sign).1, (w.holdOperator sign).2.overMinus) ∨
      w.overMinus.holdOperator sign =
        ((w.holdOperator sign).1 ++ [.negate], (w.holdOperator sign).2) := by
  unfold holdOperator
  cases precedenceOfSign? sign with
  | none => exact Or.inl rfl
  | some power =>
    obtain ⟨precedence, side⟩ := power
    simp only [overMinus]
    rcases cut_append_singleton (comesFirst precedence side) w.stack .negate with
      ⟨htake, hdrop⟩ | ⟨htake, hdrop, hall⟩
    · rw [htake, hdrop]
      exact Or.inl rfl
    · rw [htake, hdrop, hall]
      exact Or.inr rfl

theorem close_overMinus :
    w.overMinus.close = (w.close.1, w.close.2.overMinus) ∨
      w.overMinus.close = (w.close.1 ++ [.negate], w.close.2) := by
  by_cases hmem : .openParen ∈ w.stack
  · obtain ⟨inside, below, hstack, hinside⟩ := List.eq_append_cons_of_mem hmem
    exact Or.inl (close_above hstack hinside (Or.inr noCall_negate))
  · have hmem' : .openParen ∉ w.overMinus.stack := by
      simpa [overMinus] using hmem
    rw [close_of_not_mem hmem, close_of_not_mem hmem']
    exact Or.inr rfl

/-- One step keeps the minus at the bottom, or sends it out after everything else. -/
theorem step_overMinus (t : Token) :
    w.overMinus.step t = ((w.step t).1, (w.step t).2.overMinus) ∨
      w.overMinus.step t = ((w.step t).1 ++ [.negate], (w.step t).2) := by
  cases t with
  | closeParen => exact w.close_overMinus
  | operator sign =>
    by_cases hminus : sign = '-' ∧ w.afterOperand = false
    · obtain ⟨rfl, hdue⟩ := hminus
      rw [step_minus hdue, step_minus (w := w.overMinus) hdue]
      exact Or.inl rfl
    · rw [step_operator hminus, step_operator (w := w.overMinus) hminus]
      exact w.holdOperator_overMinus sign
  | _ => exact Or.inl rfl

end Waiting

/-- The minus goes out once, and all other tokens as they would without it. -/
theorem exists_postfixFrom_overMinus (ts : List Token) (w : Waiting) :
    ∃ before after, postfixFrom w ts = before ++ after ∧
      postfixFrom w.overMinus ts = before ++ .negate :: after := by
  induction ts generalizing w with
  | nil =>
    refine ⟨w.flush, [], by simp, ?_⟩
    simp [Waiting.flush, Waiting.overMinus]
  | cons t ts ih =>
    rw [postfixFrom_cons, postfixFrom_cons]
    rcases w.step_overMinus t with h | h
    · obtain ⟨before, after, hwithout, hwith⟩ := ih (w.step t).2
      refine ⟨(w.step t).1 ++ before, after, ?_, ?_⟩
      · rw [hwithout, List.append_assoc]
      · rw [h, hwith, List.append_assoc]
    · refine ⟨(w.step t).1, postfixFrom (w.step t).2 ts, rfl, ?_⟩
      rw [h, List.append_assoc, List.singleton_append]

namespace Shape

theorem scan_insert_negate {before after : List Token} {depth : Nat} (h : 0 < depth) :
    scan depth (before ++ .negate :: after) = scan depth (before ++ after) := by
  induction before generalizing depth with
  | nil =>
    have hstep : step depth .negate = .ok depth := by
      simp only [step, replace, if_pos (show 1 ≤ depth from h)]
      rw [Nat.sub_add_cancel h]
    simp only [List.nil_append, scan, hstep]
  | cons t before ih =>
    simp only [List.cons_append, scan]
    cases hstep : step depth t with
    | ok next => exact ih (step_pos hstep h)
    | error cause => rfl

end Shape

theorem scan_minus (ts : List Token) {depth : Nat} (h : 0 < depth) :
    Shape.scan depth (postfixFrom ⟨[.negate], true⟩ ts) =
      Shape.scan depth (postfixFrom ⟨[], true⟩ ts) := by
  obtain ⟨before, after, hwithout, hwith⟩ := exists_postfixFrom_overMinus ts ⟨[], true⟩
  have hover : postfixFrom ⟨[.negate], true⟩ ts = before ++ .negate :: after := hwith
  rw [hwithout, hover, Shape.scan_insert_negate h]

end Calculator
