-- A group in parentheses is put in order on its own. Its opening parenthesis lies on
-- the stack between what waits outside and what waits inside, and nothing inside
-- goes past it. What comes after the group does not depend on what stands in it.
import Calculator.Infix
import Calculator.Proofs.NumeralScan
import Calculator.Proofs.OperatorStack
import Calculator.Token.Lexer

namespace Calculator

/-! ## A row of tokens among others -/

namespace Waiting

/-- What a row of tokens sends out, and what waits after it. -/
def feed (w : Waiting) : List Token → List Token × Waiting
  | [] => ([], w)
  | t :: ts => ((w.step t).1 ++ ((w.step t).2.feed ts).1, ((w.step t).2.feed ts).2)

/-- The same with other tokens waiting below. -/
def above (w : Waiting) (bottom : List Token) : Waiting := ⟨w.stack ++ bottom, w.afterOperand⟩

/-- The number of parentheses that are open. -/
def depth (w : Waiting) : Nat := w.stack.count .openParen

end Waiting

theorem postfixFrom_append (w : Waiting) (ts us : List Token) :
    postfixFrom w (ts ++ us) = (w.feed ts).1 ++ postfixFrom (w.feed ts).2 us := by
  induction ts generalizing w with
  | nil => rfl
  | cons t ts ih => rw [List.cons_append, postfixFrom_cons, ih, Waiting.feed, List.append_assoc]

theorem toPostfix_append (ts us : List Token) :
    toPostfix (ts ++ us) = (Waiting.feed {} ts).1 ++ postfixFrom (Waiting.feed {} ts).2 us :=
  postfixFrom_append {} ts us

theorem postfixFrom_eq_feed (w : Waiting) (ts : List Token) :
    postfixFrom w ts = (w.feed ts).1 ++ (w.feed ts).2.flush := by
  have h := postfixFrom_append w ts []
  rwa [List.append_nil, postfixFrom_nil] at h

/-! ## Balanced rows -/

section

variable {ts : List Token}

theorem unpaired_concat (ts : List Token) (t : Token) :
    unpaired (ts ++ [t]) = (unpaired ts).step t := by
  simp [unpaired]

/-- A token changes the excess of opening parentheses among the unpaired as it does in the row. -/
theorem Unpaired.count_step (u : Unpaired) (t : Token) :
    (u.step t).opening + u.closing + [t].count .closeParen =
      (u.step t).closing + u.opening + [t].count .openParen := by
  cases t with
  | openParen =>
    have hcloses : [Token.openParen].count .closeParen = 0 := rfl
    rw [hcloses, List.count_singleton_self]
    dsimp only [step]
    omega
  | closeParen =>
    have hopens : [Token.closeParen].count .openParen = 0 := rfl
    rw [hopens, List.count_singleton_self]
    dsimp only [step]
    split
    · dsimp only
      omega
    · dsimp only
      omega
  | _ => simp [step, Nat.add_comm]

/-- Parentheses with a partner come in twos. -/
theorem count_unpaired (ts : List Token) :
    (unpaired ts).opening + ts.count .closeParen =
      (unpaired ts).closing + ts.count .openParen := by
  induction ts using List.reverseRecOn with
  | nil => rfl
  | append_singleton ts t ih =>
    have hstep := (unpaired ts).count_step t
    rw [unpaired_concat, List.count_append, List.count_append]
    omega

theorem Unpaired.closing_le_step (u : Unpaired) (t : Token) : u.closing ≤ (u.step t).closing := by
  cases t with
  | closeParen =>
    dsimp only [step]
    split
    · exact Nat.le_succ u.closing
    · exact Nat.le_refl u.closing
  | _ => exact Nat.le_refl u.closing

theorem closing_le_of_prefix {front : List Token} (h : front <+: ts) :
    (unpaired front).closing ≤ (unpaired ts).closing := by
  obtain ⟨back, rfl⟩ := h
  induction back using List.reverseRecOn with
  | nil => rw [List.append_nil]
  | append_singleton back t ih =>
    rw [← List.append_assoc, unpaired_concat]
    exact ih.trans (Unpaired.closing_le_step _ t)

theorem Balanced.closing_eq_zero (h : Balanced ts) {front : List Token} (hfront : front <+: ts) :
    (unpaired front).closing = 0 := by
  induction front using List.reverseRecOn with
  | nil => rfl
  | append_singleton front t ih =>
    have hbefore := ih ((List.prefix_append front [t]).trans hfront)
    have hle := h.closes_le _ hfront
    have hafter := count_unpaired (front ++ [t])
    rw [unpaired_concat] at hafter ⊢
    -- With no partner it would be one more than the row has opened.
    by_contra hne
    cases t with
    | closeParen =>
      dsimp only [Unpaired.step] at hafter hne
      split at hne
      · rename_i hnone
        rw [if_pos hnone] at hafter
        dsimp only at hafter
        omega
      · exact hne hbefore
    | _ => exact hne hbefore

theorem balanced_iff_unpaired : Balanced ts ↔ unpaired ts = {} := by
  have hcount := count_unpaired ts
  constructor
  · intro h
    have hnone := h.closing_eq_zero List.prefix_rfl
    have heq := h.opens_eq
    have hopen : (unpaired ts).opening = 0 := by omega
    cases hrow : unpaired ts with
    | mk closing opening =>
      rw [hrow] at hnone hopen
      cases hnone
      cases hopen
      rfl
  · intro h
    rw [h] at hcount
    refine ⟨fun front hfront => ?_, ?_⟩
    · have hle := closing_le_of_prefix hfront
      have hfront := count_unpaired front
      rw [h] at hle
      dsimp only at hle
      omega
    · dsimp only at hcount
      omega

instance (ts : List Token) : Decidable (Balanced ts) :=
  decidable_of_iff _ balanced_iff_unpaired.symm

end

/-! ## How many parentheses are open -/

theorem forall_ne_openParen {stack : List Token} (h : .openParen ∉ stack) :
    ∀ t ∈ stack, decide (t ≠ .openParen) = true := by
  intro t ht
  apply decide_eq_true
  rintro rfl
  exact h ht

namespace Waiting

variable {w : Waiting}

theorem close_of_stack {inside below : List Token}
    (hstack : w.stack = inside ++ .openParen :: below) (hinside : .openParen ∉ inside) :
    w.close = (inside ++ (splitFunction below).1, ⟨(splitFunction below).2, true⟩) := by
  have hrow := forall_ne_openParen hinside
  have hstop : StopsAt (fun t => decide (t ≠ .openParen)) (.openParen :: below) :=
    stopsAt_cons rfl
  unfold close
  rw [hstack, hstop.takeWhile_row hrow, hstop.dropWhile_row hrow]
  rfl

theorem close_of_not_mem (h : .openParen ∉ w.stack) : w.close = (w.stack, ⟨[], true⟩) := by
  have hrow := forall_ne_openParen h
  have htake := stopsAt_nil.takeWhile_row hrow
  have hdrop := stopsAt_nil.dropWhile_row hrow
  rw [List.append_nil] at htake hdrop
  unfold close
  rw [htake, hdrop]
  simp [splitFunction]

theorem count_splitFunction {t : Token} (h : ∀ text, .function text ≠ t) (stack : List Token) :
    (splitFunction stack).2.count t = stack.count t := by
  unfold splitFunction
  split
  · exact (List.count_cons_of_ne (h _)).symm
  · rfl

theorem depth_holdOperator (sign : Char) : (w.holdOperator sign).2.depth = w.depth := by
  unfold holdOperator
  cases precedenceOfSign? sign with
  | none => simp [hold, depth]
  | some power =>
    obtain ⟨precedence, side⟩ := power
    have hnone : .openParen ∉ w.stack.takeWhile (comesFirst precedence side) := by
      intro hmem
      have htest := List.mem_takeWhile_imp hmem
      rw [show comesFirst precedence side .openParen = false from rfl] at htest
      cases htest
    have hcut := congrArg (List.count .openParen)
      (List.takeWhile_append_dropWhile (p := comesFirst precedence side) (l := w.stack))
    rw [List.count_append, List.count_eq_zero_of_not_mem hnone, Nat.zero_add] at hcut
    simp only [hold, depth]
    rw [List.count_cons_of_ne (by simp), hcut]

theorem depth_close : w.close.2.depth = w.depth - 1 := by
  by_cases hmem : .openParen ∈ w.stack
  · obtain ⟨inside, below, hstack, hinside⟩ := List.eq_append_cons_of_mem hmem
    rw [close_of_stack hstack hinside]
    simp only [depth]
    rw [count_splitFunction (by simp), hstack]
    simp [List.count_eq_zero_of_not_mem hinside]
  · rw [close_of_not_mem hmem]
    simp [depth, List.count_eq_zero_of_not_mem hmem]

/-- The stack holds the parentheses that nothing has closed yet. -/
theorem depth_step (t : Token) (closing : Nat) :
    (w.step t).2.depth = (Unpaired.step ⟨closing, w.depth⟩ t).opening := by
  cases t with
  | closeParen =>
    simp only [step, depth_close, Unpaired.step]
    split
    · rename_i hnone
      simp [hnone]
    · rfl
  | operator sign =>
    simp only [step]
    split
    · simp [hold, depth, Unpaired.step]
    · simp [depth_holdOperator, Unpaired.step]
  | _ => simp [step, hold, depth, Unpaired.step]

theorem depth_feed (ts : List Token) (closing : Nat) :
    (w.feed ts).2.depth = (ts.foldl Unpaired.step ⟨closing, w.depth⟩).opening := by
  induction ts generalizing w closing with
  | nil => rfl
  | cons t ts ih =>
    rw [List.foldl_cons]
    cases hnext : Unpaired.step ⟨closing, w.depth⟩ t with
    | mk closing' opening' =>
      have hstep := w.depth_step t closing
      rw [hnext] at hstep
      have hlater := ih (w := (w.step t).2) closing'
      rw [hstep] at hlater
      exact hlater

end Waiting

section

variable {ts : List Token}

theorem depth_feed_nil (ts : List Token) :
    (Waiting.feed {} ts).2.depth = (unpaired ts).opening :=
  Waiting.depth_feed (w := {}) ts 0

/-- In a balanced row, each parenthesis that closes finds one open. -/
theorem Balanced.openParen_mem (h : Balanced ts) {front : List Token}
    (hfront : front ++ [.closeParen] <+: ts) : .openParen ∈ (Waiting.feed {} front).2.stack := by
  have hclosing := h.closing_eq_zero hfront
  have hdepth := depth_feed_nil front
  rw [unpaired_concat] at hclosing
  apply List.count_pos_iff.mp
  show 0 < (Waiting.feed {} front).2.depth
  rw [hdepth]
  by_contra hnone
  simp [Unpaired.step, Nat.eq_zero_of_not_pos hnone] at hclosing

theorem Balanced.openParen_not_mem (h : Balanced ts) :
    .openParen ∉ (Waiting.feed {} ts).2.stack := by
  have hdepth := depth_feed_nil ts
  rw [balanced_iff_unpaired.mp h] at hdepth
  exact List.count_eq_zero.mp hdepth

end

/-! ## What waits below -/

/-- No operator goes past the first of these tokens. -/
def Barrier (bottom : List Token) : Prop := ∀ top ∈ bottom.head?, top.strength? = none

theorem barrier_openParen {stack : List Token} : Barrier (.openParen :: stack) := by
  intro top htop
  cases htop
  rfl

theorem barrier_function {text : String} {stack : List Token} :
    Barrier (.function text :: stack) := by
  intro top htop
  cases htop
  rfl

theorem Barrier.stopsAt {bottom : List Token} (h : Barrier bottom) (precedence : Nat)
    (side : Associativity) : StopsAt (comesFirst precedence side) bottom := by
  intro top htop
  unfold comesFirst
  rw [h top htop]

/-- No parenthesis lies at the bottom of the stack. -/
def Grounded (stack : List Token) : Prop := stack.getLast? ≠ some .openParen

namespace Waiting

variable {w : Waiting} {bottom : List Token}

theorem holdOperator_above (h : Barrier bottom) (sign : Char) :
    (w.above bottom).holdOperator sign =
      ((w.holdOperator sign).1, (w.holdOperator sign).2.above bottom) := by
  unfold holdOperator
  cases precedenceOfSign? sign with
  | none => rfl
  | some power =>
    obtain ⟨precedence, side⟩ := power
    have hstop := h.stopsAt precedence side
    simp only [above, hold, List.cons_append]
    rw [hstop.takeWhile_append, hstop.dropWhile_append]

/-- When a parenthesis closes, a function below stays if it is no function of this parenthesis. -/
theorem close_above {inside below : List Token} (hstack : w.stack = inside ++ .openParen :: below)
    (hinside : .openParen ∉ inside) (h : below ≠ [] ∨ NoCall bottom) :
    (w.above bottom).close = (w.close.1, w.close.2.above bottom) := by
  have hstack' : (w.above bottom).stack = inside ++ .openParen :: (below ++ bottom) := by
    unfold above
    rw [hstack, List.append_assoc, List.cons_append]
  have hsplit : splitFunction (below ++ bottom) =
      ((splitFunction below).1, (splitFunction below).2 ++ bottom) := by
    rcases h with hne | hnone
    · obtain ⟨top, under, rfl⟩ := List.exists_cons_of_ne_nil hne
      cases top <;> rfl
    · exact hnone.splitFunction_append
  rw [close_of_stack hstack hinside, close_of_stack hstack' hinside, hsplit]
  rfl

/-- The latest parenthesis can close, and takes no function from below. -/
def ClosesAbove (w : Waiting) (bottom : List Token) : Prop :=
  .openParen ∈ w.stack ∧ (Grounded w.stack ∨ NoCall bottom)

/-- One step leaves alone what waits below. -/
theorem step_above (hbarrier : Barrier bottom) {t : Token}
    (hclose : t = .closeParen → w.ClosesAbove bottom) :
    (w.above bottom).step t = ((w.step t).1, (w.step t).2.above bottom) := by
  cases t with
  | closeParen =>
    obtain ⟨hmem, hlast⟩ := hclose rfl
    obtain ⟨inside, below, hstack, hinside⟩ := List.eq_append_cons_of_mem hmem
    apply close_above hstack hinside
    apply hlast.imp_left
    rintro hgrounded rfl
    apply hgrounded
    rw [hstack, List.getLast?_append]
    rfl
  | operator sign =>
    by_cases hminus : sign = '-' ∧ w.afterOperand = false
    · obtain ⟨rfl, hdue⟩ := hminus
      rw [step_minus hdue, step_minus (w := w.above bottom) hdue]
      rfl
    · rw [step_operator hminus, step_operator (w := w.above bottom) hminus]
      exact holdOperator_above hbarrier sign
  | _ => rfl

theorem feed_above (hbarrier : Barrier bottom) {ts : List Token}
    (hclose : ∀ front, front ++ [.closeParen] <+: ts → (w.feed front).2.ClosesAbove bottom) :
    (w.above bottom).feed ts = ((w.feed ts).1, (w.feed ts).2.above bottom) := by
  induction ts generalizing w with
  | nil => rfl
  | cons t ts ih =>
    have hstep : (w.above bottom).step t = _ := step_above hbarrier (by
      rintro rfl
      exact hclose [] ⟨ts, rfl⟩)
    have hlater := ih (w := (w.step t).2) fun front hfront =>
      hclose (t :: front) (List.cons_prefix_cons.mpr ⟨rfl, hfront⟩)
    simp only [feed, hstep, hlater]

/-- Where the group ends, what waits inside it goes out, and then the rest as if nothing had waited
there. -/
theorem postfixFrom_above {rest : List Token} (hopen : .openParen ∉ w.stack)
    (hrest : ∀ t ∈ rest.head?, t = .closeParen) :
    postfixFrom (w.above bottom) rest = w.flush ++ postfixFrom ⟨bottom, true⟩ rest := by
  have hrow := forall_ne_openParen hopen
  have hflush : w.flush = w.stack := List.filter_eq_self.mpr hrow
  cases rest with
  | nil => simp [flush, above]
  | cons t rest =>
    obtain rfl := hrest t rfl
    rw [hflush, postfixFrom_cons, postfixFrom_cons]
    simp only [step, close, above]
    rw [List.takeWhile_append_of_pos hrow, List.dropWhile_append_of_pos hrow]
    simp only [List.append_assoc]

end Waiting

/-! ## The law -/

section

variable {group rest : List Token}

/-- A balanced row goes out as it would alone, when it leaves alone what waits below and its own
group ends behind it. -/
theorem postfixFrom_balanced {bottom : List Token} (hgroup : Balanced group)
    (hbarrier : Barrier bottom) (hrest : ∀ t ∈ rest.head?, t = .closeParen)
    (hbelow : ∀ front, front ++ [.closeParen] <+: group →
      Grounded (Waiting.feed {} front).2.stack ∨ NoCall bottom) :
    postfixFrom ⟨bottom, false⟩ (group ++ rest) =
      toPostfix group ++ postfixFrom ⟨bottom, true⟩ rest := by
  have hfeed : (Waiting.above {} bottom).feed group =
      ((Waiting.feed {} group).1, (Waiting.feed {} group).2.above bottom) :=
    Waiting.feed_above hbarrier fun front hfront =>
      ⟨hgroup.openParen_mem hfront, hbelow front hfront⟩
  calc postfixFrom ⟨bottom, false⟩ (group ++ rest)
      = (Waiting.feed {} group).1 ++ postfixFrom ((Waiting.feed {} group).2.above bottom) rest := by
        rw [postfixFrom_append]
        exact congrArg (fun fed => fed.1 ++ postfixFrom fed.2 rest) hfeed
    _ = (Waiting.feed {} group).1 ++
          ((Waiting.feed {} group).2.flush ++ postfixFrom ⟨bottom, true⟩ rest) := by
        rw [Waiting.postfixFrom_above hgroup.openParen_not_mem hrest]
    _ = toPostfix group ++ postfixFrom ⟨bottom, true⟩ rest := by
        rw [← List.append_assoc, ← postfixFrom_eq_feed]
        rfl

theorem postfixFrom_group (hgroup : Balanced group) (w : Waiting) :
    postfixFrom w (.openParen :: (group ++ .closeParen :: rest)) =
      toPostfix group ++ postfixFrom ⟨.openParen :: w.stack, true⟩ (.closeParen :: rest) := by
  have hrest : ∀ t ∈ (Token.closeParen :: rest).head?, t = .closeParen := by
    intro t ht
    cases ht
    rfl
  exact postfixFrom_balanced hgroup barrier_openParen hrest fun _ _ => Or.inr noCall_openParen

theorem postfixFrom_call (hgroup : Balanced group) (w : Waiting) (text : String) :
    postfixFrom w (.function text :: .openParen :: (group ++ .closeParen :: rest)) =
      toPostfix group ++ .function text :: postfixFrom ⟨w.stack, true⟩ rest := by
  have hclose : postfixFrom ⟨.openParen :: .function text :: w.stack, true⟩ (.closeParen :: rest) =
      .function text :: postfixFrom ⟨w.stack, true⟩ rest := postfixFrom_closeCall
  rw [← hclose]
  exact postfixFrom_group hgroup (w.hold (.function text))

end

/-- The tokens of a balanced group go out as they would alone, between tokens that do not depend on
the group. -/
theorem a_group_is_put_in_order_on_its_own (front back : List Token) :
    ∃ before after, ∀ group, Balanced group →
      toPostfix (front ++ [.openParen] ++ group ++ [.closeParen] ++ back) =
        before ++ toPostfix group ++ after := by
  let w := (Waiting.feed {} front).2
  refine ⟨(Waiting.feed {} front).1,
    postfixFrom ⟨.openParen :: w.stack, true⟩ (.closeParen :: back), fun group hgroup => ?_⟩
  simp only [List.append_assoc, List.cons_append, List.nil_append]
  rw [toPostfix_append, postfixFrom_group hgroup]

/-- The same tokens stand around a group that is an expression and around one that is none. -/
theorem any_two_groups_have_the_same_surroundings :
    let front := tokenize "√2*-"
    let back := tokenize "^2)+"
    ∃ before after, ∀ group ∈ [tokenize "3-(4)", tokenize "-,sin(+)5%"],
      Balanced group ∧ toPostfix (front ++ [.openParen] ++ group ++ [.closeParen] ++ back) =
        before ++ toPostfix group ++ after := by
  intro front back
  obtain ⟨before, after, hlaw⟩ := a_group_is_put_in_order_on_its_own front back
  have hbalanced : ∀ group ∈ [tokenize "3-(4)", tokenize "-,sin(+)5%"], Balanced group := by
    decide +kernel
  exact ⟨before, after, fun group hgroup =>
    ⟨hbalanced group hgroup, hlaw group (hbalanced group hgroup)⟩⟩

end Calculator
