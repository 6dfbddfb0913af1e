-- A function without a parenthesis of its own, such as the bare root sign, takes
-- everything up to the end of its group. It waits at the bottom until then, and a
-- parenthesis that closes before has something else of its own beneath it.
import Calculator.Proofs.ParenGroups
import Calculator.Proofs.PostfixOrder

namespace Calculator

/-- A row in which every opening parenthesis stands right behind a token of the row that an operand
has to follow: an operator, a prefix, a function or another opening parenthesis. -/
def ParensDue (ts : List Token) : Prop :=
  ts.head? ≠ some .openParen ∧ ts.IsChain fun t u => u = .openParen → t.endsOperand = false

instance (ts : List Token) : Decidable (ParensDue ts) :=
  inferInstanceAs (Decidable (_ ∧ _))

theorem ParensDue.of_append {front back : List Token} (h : ParensDue (front ++ back)) :
    ParensDue front := by
  refine ⟨?_, h.2.left_of_append⟩
  cases front with
  | nil => simp
  | cons t front => exact h.1

/-! ## What lies at the bottom -/

section

variable {stack kept : List Token} {t : Token}

theorem grounded_nil : Grounded [] := by
  simp [Grounded]

theorem Grounded.of_suffix (h : Grounded stack) (hkept : kept <:+ stack) : Grounded kept := by
  obtain ⟨sent, rfl⟩ := hkept
  intro hlast
  apply h
  rw [List.getLast?_append, hlast]
  rfl

theorem Grounded.cons (h : Grounded stack) (ht : t = .openParen → stack ≠ []) :
    Grounded (t :: stack) := by
  cases stack with
  | nil =>
    intro hlast
    cases hlast
    exact ht rfl rfl
  | cons top below =>
    unfold Grounded
    rw [List.getLast?_cons_cons]
    exact h

theorem splitFunction_suffix (stack : List Token) :
    (Waiting.splitFunction stack).2 <:+ stack := by
  unfold Waiting.splitFunction
  split
  · exact List.suffix_cons _ _
  · exact List.suffix_rfl

end

namespace Waiting

variable {w : Waiting}

theorem grounded_holdOperator (h : Grounded w.stack) (sign : Char) :
    Grounded (w.holdOperator sign).2.stack := by
  unfold holdOperator
  cases precedenceOfSign? sign with
  | none => exact h.cons (by simp)
  | some power => exact (h.of_suffix (List.dropWhile_suffix _)).cons (by simp)

theorem grounded_close (h : Grounded w.stack) : Grounded w.close.2.stack := by
  have houtside : w.close.2.stack <:+ (w.stack.dropWhile (· ≠ .openParen)).drop 1 :=
    splitFunction_suffix _
  exact h.of_suffix (houtside.trans ((List.drop_suffix _ _).trans (List.dropWhile_suffix _)))

/-- One token puts no parenthesis at the bottom, unless it is one and nothing waits. -/
theorem grounded_step (h : Grounded w.stack) {t : Token} (ht : t = .openParen → w.stack ≠ []) :
    Grounded (w.step t).2.stack := by
  cases t with
  | function text => exact h.cons (by simp)
  | openParen => exact h.cons ht
  | negate => exact h.cons (by simp)
  | closeParen => exact grounded_close h
  | operator sign =>
    simp only [step]
    split
    · exact h.cons (by simp)
    · exact grounded_holdOperator h sign
  | _ => exact h

theorem stack_step_ne_nil {t : Token} (h : t.endsOperand = false) : (w.step t).2.stack ≠ [] := by
  cases t with
  | operator sign =>
    simp only [step]
    split
    · simp [hold]
    · unfold holdOperator
      split <;> simp [hold]
  | function text => simp [step, hold]
  | openParen => simp [step, hold]
  | negate => simp [step, hold]
  | _ => cases h

theorem grounded_feed {ts : List Token} (h : Grounded w.stack)
    (hhead : ts.head? = some .openParen → w.stack ≠ [])
    (hdue : ts.IsChain fun t u => u = .openParen → t.endsOperand = false) :
    Grounded (w.feed ts).2.stack := by
  induction ts generalizing w with
  | nil => exact h
  | cons t ts ih =>
    apply ih
    · exact grounded_step h fun ht => hhead (congrArg some ht)
    · intro hnext
      obtain ⟨rest, rfl⟩ := List.head?_eq_some_iff.mp hnext
      exact stack_step_ne_nil (List.rel_of_isChain_cons_cons hdue rfl)
    · exact hdue.tail

end Waiting

/-! ## The law -/

section

variable {group rest : List Token}

/-- What stands behind a bare function in its group goes out in front of it. -/
theorem postfixFrom_bareFunction (hgroup : Balanced group) (hparens : ParensDue group)
    (hrest : ∀ t ∈ rest.head?, t = .closeParen) (w : Waiting) (text : String) :
    postfixFrom w (.function text :: (group ++ rest)) =
      toPostfix group ++ .function text :: postfixFrom ⟨w.stack, true⟩ rest := by
  have hgrounded : ∀ front, front ++ [.closeParen] <+: group →
      Grounded (Waiting.feed {} front).2.stack := by
    intro front hfront
    obtain ⟨back, hback⟩ := hfront
    rw [← hback, List.append_assoc] at hparens
    have hdue := hparens.of_append
    exact Waiting.grounded_feed grounded_nil (fun hhead => absurd hhead hdue.1) hdue.2
  have hfunction : postfixFrom ⟨.function text :: w.stack, true⟩ rest =
      .function text :: postfixFrom ⟨w.stack, true⟩ rest :=
    Waiting.postfixFrom_above (w := ⟨[.function text], true⟩) (by simp) hrest
  rw [← hfunction]
  exact postfixFrom_balanced hgroup barrier_function hrest fun front hfront =>
    Or.inl (hgrounded front hfront)

/-- A bare function takes the rest of its group, up to the closing parenthesis or the end of the
row, as if that rest stood in parentheses of its own. -/
theorem a_bare_function_takes_the_rest_of_its_group (front : List Token) (text : String)
    (hgroup : Balanced group) (hparens : ParensDue group)
    (hrest : ∀ t ∈ rest.head?, t = .closeParen) :
    toPostfix (front ++ [.function text] ++ group ++ rest) =
      toPostfix (front ++ [.function text, .openParen] ++ group ++ [.closeParen] ++ rest) := by
  simp only [List.append_assoc, List.cons_append, List.nil_append]
  rw [toPostfix_append, toPostfix_append, postfixFrom_bareFunction hgroup hparens hrest,
    postfixFrom_call hgroup]

end

/-- Calls, groups and signs behind a bare root stay with it up to the end of its group. -/
theorem a_root_in_a_group_takes_a_call_and_a_sum :
    let group := tokenize "9+sin(-(7))^2"
    let rest := tokenize ")*3"
    Balanced group ∧ ParensDue group ∧ (∀ t ∈ rest.head?, t = .closeParen) ∧
      toPostfix (tokenize "2*(1-" ++ [.function "sqrt"] ++ group ++ rest) =
        toPostfix (tokenize "2*(1-" ++ [.function "sqrt", .openParen] ++ group ++ [.closeParen] ++
          rest) := by
  intro group rest
  have hgroup : Balanced group := by decide +kernel
  have hparens : ParensDue group := by decide +kernel
  have hrest : ∀ t ∈ rest.head?, t = .closeParen := by decide +kernel
  exact ⟨hgroup, hparens, hrest,
    a_bare_function_takes_the_rest_of_its_group (tokenize "2*(1-") "sqrt" hgroup hparens hrest⟩

end Calculator
