-- A comma waits on the stack, and no operator goes past it. So it groups what
-- follows it as an opening parenthesis does that closes where the group of the
-- comma ends. Where no token would go past one, the commas change nothing.
import Calculator.Evaluation
import Calculator.Proofs.OperandCount
import Calculator.Proofs.ParenGroups
import Calculator.Proofs.PostfixOrder

namespace Calculator

/-! ## Rows without commas -/

/-- A row without its commas. -/
def withoutCommas (ts : List Token) : List Token := ts.filter (· ≠ .operator ',')

section

variable {ts us : List Token} {t : Token}

@[simp] theorem withoutCommas_nil : withoutCommas [] = [] := rfl

@[simp] theorem withoutCommas_append :
    withoutCommas (ts ++ us) = withoutCommas ts ++ withoutCommas us :=
  List.filter_append ts us

@[simp] theorem withoutCommas_comma : withoutCommas (.operator ',' :: ts) = withoutCommas ts := rfl

theorem withoutCommas_cons (h : t ≠ .operator ',') :
    withoutCommas (t :: ts) = t :: withoutCommas ts :=
  List.filter_cons_of_pos (by simpa using h)

theorem withoutCommas_eq_self (h : .operator ',' ∉ ts) : withoutCommas ts = ts := by
  apply List.filter_eq_self.mpr
  intro t ht
  simp only [decide_eq_true_eq]
  rintro rfl
  exact h ht

theorem comma_not_mem_takeWhile (ts : List Token) (precedence : Nat) (side : Associativity) :
    .operator ',' ∉ ts.takeWhile (comesFirst precedence side) := by
  intro hmem
  have htest : comesFirst precedence side (.operator ',') = true := List.mem_takeWhile_imp hmem
  cases htest

theorem withoutCommas_splitFunction (ts : List Token) :
    withoutCommas (Waiting.splitFunction ts).1 = (Waiting.splitFunction ts).1 := by
  unfold Waiting.splitFunction
  split <;> rfl

theorem splitFunction_append_eq (ts : List Token) :
    (Waiting.splitFunction ts).1 ++ (Waiting.splitFunction ts).2 = ts := by
  unfold Waiting.splitFunction
  split <;> rfl

theorem withoutCommas_split (ts : List Token) :
    withoutCommas ts =
      (Waiting.splitFunction ts).1 ++ withoutCommas (Waiting.splitFunction ts).2 := by
  conv_lhs => rw [← splitFunction_append_eq ts]
  rw [withoutCommas_append, withoutCommas_splitFunction]

theorem run_withoutCommas (env : Environment) (operands : Operands) (ts : List Token) :
    env.run operands (withoutCommas ts) = env.run operands ts := by
  induction ts generalizing operands with
  | nil => rfl
  | cons t ts ih =>
    by_cases ht : t = .operator ','
    · subst ht
      exact ih operands
    · rw [withoutCommas_cons ht]
      unfold Environment.run
      cases env.step operands t with
      | ok next => exact ih next
      | error cause => rfl

theorem evaluatePostfix_withoutCommas (env : Environment) (ts : List Token) :
    evaluatePostfix env (withoutCommas ts) = evaluatePostfix env ts := by
  unfold evaluatePostfix
  rw [run_withoutCommas]

end

/-! ## Where a parenthesis closes -/

/-- Nothing, or a group that is open and what waits outside it. -/
def GroupStart (outer : List Token) : Prop := ∀ t ∈ outer.head?, t = .openParen

section

variable {inside outer : List Token}

theorem groupStart_nil : GroupStart [] := by
  intro t ht
  cases ht

theorem groupStart_openParen {below : List Token} : GroupStart (.openParen :: below) := by
  intro t ht
  cases ht
  rfl

theorem exists_groupStart (stack : List Token) :
    ∃ inside outer, stack = inside ++ outer ∧ .openParen ∉ inside ∧ GroupStart outer := by
  by_cases hmem : .openParen ∈ stack
  · obtain ⟨inside, below, hstack, hinside⟩ := List.eq_append_cons_of_mem hmem
    exact ⟨inside, .openParen :: below, hstack, hinside, groupStart_openParen⟩
  · exact ⟨stack, [], (List.append_nil stack).symm, hmem, groupStart_nil⟩

theorem GroupStart.stopsAt (h : GroupStart outer) :
    StopsAt (fun t => decide (t ≠ .openParen)) outer := by
  intro t ht
  rw [h t ht]
  rfl

theorem GroupStart.noCall (h : GroupStart outer) : NoCall outer := by
  rintro text under rfl
  cases h (.function text) rfl

theorem GroupStart.filter {p : Token → Bool} (hp : p .openParen = true) (h : GroupStart outer) :
    GroupStart (outer.filter p) ∧ (outer.filter p).drop 1 = (outer.drop 1).filter p := by
  cases outer with
  | nil => exact ⟨h, rfl⟩
  | cons top below =>
    obtain rfl := h top rfl
    rw [List.filter_cons_of_pos hp]
    exact ⟨groupStart_openParen, rfl⟩

/-- A closing parenthesis sends out the inside of the group, and the function outside it. -/
theorem Waiting.close_group (hinside : .openParen ∉ inside) (houter : GroupStart outer)
    (afterOperand : Bool) :
    Waiting.close ⟨inside ++ outer, afterOperand⟩ =
      (inside ++ (splitFunction (outer.drop 1)).1, ⟨(splitFunction (outer.drop 1)).2, true⟩) := by
  have hrow := forall_ne_openParen hinside
  unfold close
  dsimp only
  rw [houter.stopsAt.takeWhile_row hrow, houter.stopsAt.dropWhile_row hrow]

end

/-! ## Commas as parentheses -/

namespace Token

/-- A parenthesis in place of a comma. -/
def opening (t : Token) : Token := if t = .operator ',' then .openParen else t

/-- Does a token open a group, as a parenthesis or as a comma? -/
def opens (t : Token) : Bool := t = .openParen ∨ t = .operator ','

/-- A token where each comma opens a group. The commas and the parentheses that are open before it
and after it are listed, the latest first. A closing parenthesis closes the commas since its
partner as well. -/
def grouping (opened : List Token) : Token → List Token × List Token
  | .openParen => ([.openParen], .openParen :: opened)
  | .closeParen =>
    (List.replicate ((opened.takeWhile (· ≠ .openParen)).length + 1) .closeParen,
      (opened.dropWhile (· ≠ .openParen)).drop 1)
  | .operator sign =>
    if sign = ',' then ([.openParen], .operator sign :: opened) else ([.operator sign], opened)
  | t => ([t], opened)

end Token

/-- The row with a group from each comma to the end of the group that the comma stands in. -/
def commasAsGroups (opened : List Token) : List Token → List Token
  | [] => []
  | t :: ts => (t.grouping opened).1 ++ commasAsGroups (t.grouping opened).2 ts

section

variable {t : Token} {ts : List Token}

theorem Token.opening_of_ne (h : t ≠ .operator ',') : t.opening = t := if_neg h

theorem map_opening_eq_self (h : .operator ',' ∉ ts) : ts.map Token.opening = ts := by
  have hid : ∀ t ∈ ts, t.opening = id t := by
    intro t ht
    apply Token.opening_of_ne
    rintro rfl
    exact h ht
  rw [List.map_congr_left hid, List.map_id]

theorem comesFirst_opening (precedence : Nat) (side : Associativity) (t : Token) :
    comesFirst precedence side t.opening = comesFirst precedence side t := by
  by_cases ht : t = .operator ','
  · subst ht
    rfl
  · rw [Token.opening_of_ne ht]

theorem splitFunction_map_opening (ts : List Token) :
    Waiting.splitFunction (ts.map Token.opening) =
      ((Waiting.splitFunction ts).1, (Waiting.splitFunction ts).2.map Token.opening) := by
  cases ts with
  | nil => rfl
  | cons top below =>
    by_cases htop : top = .operator ','
    · subst htop
      rfl
    · rw [List.map_cons, Token.opening_of_ne htop]
      cases top with
      | function text => rfl
      | _ => simp [Waiting.splitFunction, Token.opening_of_ne htop]

theorem GroupStart.map_opening {outer : List Token} (h : GroupStart outer) :
    GroupStart (outer.map Token.opening) := by
  cases outer with
  | nil => exact h
  | cons top below =>
    obtain rfl := h top rfl
    exact groupStart_openParen

theorem filter_opens_inside {inside : List Token} (h : .openParen ∉ inside) :
    (inside.filter Token.opens).length = inside.count (.operator ',') ∧
      .openParen ∉ inside.filter Token.opens := by
  refine ⟨?_, fun hmem => h (List.mem_of_mem_filter hmem)⟩
  rw [← List.countP_eq_length_filter, List.count]
  apply List.countP_congr
  intro t ht
  have hne : t ≠ .openParen := by
    rintro rfl
    exact h ht
  simp [Token.opens, hne]

end

namespace Waiting

variable (w : Waiting)

/-- The same with a parenthesis in place of each comma that waits. -/
def grouped : Waiting := ⟨w.stack.map Token.opening, w.afterOperand⟩

theorem grouped_hold {t : Token} (h : t ≠ .operator ',') :
    (w.hold t).grouped = w.grouped.hold t := by
  simp [grouped, hold, Token.opening_of_ne h]

theorem grouped_holdOperator {sign : Char} (h : sign ≠ ',') :
    w.grouped.holdOperator sign =
      (withoutCommas (w.holdOperator sign).1, (w.holdOperator sign).2.grouped) := by
  have hsign : Token.operator sign ≠ .operator ',' := by simpa using h
  unfold holdOperator
  cases precedenceOfSign? sign with
  | none =>
    dsimp only
    rw [grouped_hold w hsign, withoutCommas_nil]
  | some power =>
    obtain ⟨precedence, side⟩ := power
    have hfirst : comesFirst precedence side ∘ Token.opening = comesFirst precedence side :=
      funext (comesFirst_opening precedence side)
    have hnone := comma_not_mem_takeWhile w.stack precedence side
    dsimp only [grouped]
    rw [List.takeWhile_map, List.dropWhile_map, hfirst, map_opening_eq_self hnone,
      withoutCommas_eq_self hnone]
    simp [hold, Token.opening_of_ne hsign]

theorem opens_holdOperator {sign : Char} (h : sign ≠ ',') :
    (w.holdOperator sign).2.stack.filter Token.opens = w.stack.filter Token.opens := by
  unfold holdOperator
  cases precedenceOfSign? sign with
  | none => simp [hold, Token.opens, h]
  | some power =>
    obtain ⟨precedence, side⟩ := power
    have hnone : (w.stack.takeWhile (comesFirst precedence side)).filter Token.opens = [] := by
      apply List.filter_eq_nil_iff.mpr
      intro t ht hopens
      have hcomes := List.mem_takeWhile_imp ht
      simp only [Token.opens, decide_eq_true_eq] at hopens
      rcases hopens with rfl | rfl <;> cases hcomes
    have hcut := congrArg (List.filter Token.opens)
      (List.takeWhile_append_dropWhile (p := comesFirst precedence side) (l := w.stack))
    rw [List.filter_append, hnone, List.nil_append] at hcut
    simp [hold, Token.opens, h, hcut]

/-- The first closing parenthesis closes the latest comma, and sends out a function that waits right
below this comma. -/
theorem close_latest {latest outer : List Token} (earlier : List Token)
    (hlatest : .operator ',' ∉ latest) (hparen : .openParen ∉ latest) (houter : NoCall outer)
    (afterOperand : Bool) :
    close ⟨(latest ++ .operator ',' :: earlier ++ outer).map Token.opening, afterOperand⟩ =
      (latest ++ (splitFunction earlier).1,
        ⟨((splitFunction earlier).2 ++ outer).map Token.opening, true⟩) := by
  have hstack : (latest ++ .operator ',' :: earlier ++ outer).map Token.opening =
      latest ++ .openParen :: (earlier ++ outer).map Token.opening := by
    rw [List.append_assoc, List.map_append, map_opening_eq_self hlatest]
    rfl
  rw [hstack, close_group hparen groupStart_openParen, List.drop_one, List.tail_cons,
    splitFunction_map_opening, houter.splitFunction_append]

/-- The closing parentheses of a group with commas send out what the one of the group does. -/
theorem feed_closes {inside outer : List Token} (hinside : .openParen ∉ inside)
    (houter : GroupStart outer) (afterOperand : Bool) :
    feed ⟨(inside ++ outer).map Token.opening, afterOperand⟩
        (List.replicate (inside.count (.operator ',') + 1) .closeParen) =
      (withoutCommas inside ++ (splitFunction (outer.drop 1)).1,
        ⟨(splitFunction (outer.drop 1)).2.map Token.opening, true⟩) := by
  -- The first one closes the latest comma. A function that goes out with it would be the next to go
  -- out anyway.
  induction hcount : inside.count (.operator ',') generalizing inside afterOperand with
  | zero =>
    have hcomma := List.count_eq_zero.mp hcount
    rw [List.map_append, map_opening_eq_self hcomma, withoutCommas_eq_self hcomma]
    simp only [Nat.zero_add, List.replicate_one, feed, step]
    rw [close_group hinside houter.map_opening, ← List.map_drop, splitFunction_map_opening,
      List.append_nil]
  | succ n ih =>
    have hmem : .operator ',' ∈ inside := List.count_pos_iff.mp (by omega)
    obtain ⟨latest, earlier, rfl, hlatest⟩ := List.eq_append_cons_of_mem hmem
    have hparens : .openParen ∉ latest ∧ .openParen ∉ (splitFunction earlier).2 := by
      rw [← splitFunction_append_eq earlier] at hinside
      simp only [List.mem_append, List.mem_cons, not_or] at hinside
      exact ⟨hinside.1, hinside.2.2.2⟩
    have hfewer : (splitFunction earlier).2.count (.operator ',') = n := by
      rw [count_splitFunction (by simp)]
      rw [List.count_append, List.count_eq_zero.mpr hlatest, List.count_cons_self] at hcount
      omega
    have hfirst := close_latest earlier hlatest hparens.1 houter.noCall afterOperand
    have hlater := ih hparens.2 true hfewer
    rw [List.replicate_succ]
    simp only [feed, step]
    rw [hfirst, hlater, withoutCommas_append, withoutCommas_comma, withoutCommas_eq_self hlatest,
      withoutCommas_split earlier]
    simp only [List.append_assoc]

theorem opens_splitFunction (stack : List Token) :
    (splitFunction stack).2.filter Token.opens = stack.filter Token.opens := by
  unfold splitFunction
  split <;> rfl

theorem feed_singleton (t : Token) : w.feed [t] = w.step t := by
  simp [feed]

theorem flush_grouped : w.grouped.flush = withoutCommas w.flush := by
  simp only [flush, grouped]
  induction w.stack with
  | nil => rfl
  | cons t ts ih =>
    by_cases hcomma : t = .operator ','
    · subst hcomma
      exact ih
    · by_cases hparen : t = .openParen
      · subst hparen
        exact ih
      · rw [List.map_cons, Token.opening_of_ne hcomma,
          List.filter_cons_of_pos (by simpa using hparen),
          List.filter_cons_of_pos (by simpa using hparen), withoutCommas_cons hcomma, ih]

theorem feed_grouping_close :
    w.grouped.feed (Token.closeParen.grouping (w.stack.filter Token.opens)).1 =
        (withoutCommas w.close.1, w.close.2.grouped) ∧
      (Token.closeParen.grouping (w.stack.filter Token.opens)).2 =
        w.close.2.stack.filter Token.opens := by
  obtain ⟨stack, afterOperand⟩ := w
  obtain ⟨inside, outer, rfl, hinside, houter⟩ := exists_groupStart stack
  obtain ⟨hlength, hopens⟩ := filter_opens_inside hinside
  obtain ⟨hstart, hdrop⟩ := houter.filter (p := Token.opens) rfl
  have hrow := forall_ne_openParen hopens
  have hclose := close_group hinside houter afterOperand
  have hfeed := feed_closes hinside houter afterOperand
  simp only [Token.grouping, List.filter_append]
  rw [hstart.stopsAt.takeWhile_row hrow, hstart.stopsAt.dropWhile_row hrow, hlength, hdrop, hclose,
    withoutCommas_append, withoutCommas_splitFunction]
  exact ⟨hfeed, (opens_splitFunction _).symm⟩

/-- One token of the row with groups sends out what it does in the row with commas. -/
theorem feed_grouping (t : Token) :
    w.grouped.feed (t.grouping (w.stack.filter Token.opens)).1 =
        (withoutCommas (w.step t).1, (w.step t).2.grouped) ∧
      (t.grouping (w.stack.filter Token.opens)).2 = (w.step t).2.stack.filter Token.opens := by
  cases t with
  | closeParen => exact w.feed_grouping_close
  | operator sign =>
    by_cases hcomma : sign = ','
    · subst hcomma
      exact ⟨rfl, rfl⟩
    · have hgrouping : (Token.operator sign).grouping (w.stack.filter Token.opens) =
          ([.operator sign], w.stack.filter Token.opens) := if_neg hcomma
      rw [hgrouping, feed_singleton]
      by_cases hminus : sign = '-' ∧ w.afterOperand = false
      · obtain ⟨rfl, hdue⟩ := hminus
        rw [step_minus hdue, step_minus (w := w.grouped) hdue]
        exact ⟨rfl, rfl⟩
      · rw [step_operator hminus, step_operator (w := w.grouped) hminus]
        exact ⟨w.grouped_holdOperator hcomma, (w.opens_holdOperator hcomma).symm⟩
  | _ => exact ⟨rfl, rfl⟩

end Waiting

theorem postfixFrom_commasAsGroups (w : Waiting) (ts : List Token) :
    postfixFrom w.grouped (commasAsGroups (w.stack.filter Token.opens) ts) =
      withoutCommas (postfixFrom w ts) := by
  induction ts generalizing w with
  | nil => exact w.flush_grouped
  | cons t ts ih =>
    obtain ⟨hfeed, hopened⟩ := w.feed_grouping t
    rw [commasAsGroups, postfixFrom_append, hfeed, hopened, ih, postfixFrom_cons,
      withoutCommas_append]

theorem toPostfix_commasAsGroups (ts : List Token) :
    toPostfix (commasAsGroups [] ts) = withoutCommas (toPostfix ts) :=
  postfixFrom_commasAsGroups {} ts

/-! ## Tokens that a comma bars -/

section

variable {ts : List Token}

theorem stopsAt_of_any {p : Token → Bool} (h : ts.head?.any p = false) : StopsAt p ts := by
  cases ts with
  | nil => exact stopsAt_nil
  | cons t ts => exact stopsAt_cons h

/-- What an operator sends out is the same without the commas when it is not stopped by one. -/
theorem cut_withoutCommas {precedence : Nat} {side : Associativity}
    (h : StopsAt (comesFirst precedence side)
      (withoutCommas (ts.dropWhile (comesFirst precedence side)))) :
    (withoutCommas ts).takeWhile (comesFirst precedence side) =
        ts.takeWhile (comesFirst precedence side) ∧
      (withoutCommas ts).dropWhile (comesFirst precedence side) =
        withoutCommas (ts.dropWhile (comesFirst precedence side)) := by
  have hrow : ∀ t ∈ ts.takeWhile (comesFirst precedence side),
      comesFirst precedence side t = true := fun t => List.mem_takeWhile_imp
  have hcut : withoutCommas ts = ts.takeWhile (comesFirst precedence side) ++
      withoutCommas (ts.dropWhile (comesFirst precedence side)) := by
    conv_lhs => rw [← List.takeWhile_append_dropWhile (p := comesFirst precedence side) (l := ts)]
    rw [withoutCommas_append, withoutCommas_eq_self (comma_not_mem_takeWhile ts precedence side)]
  rw [hcut, h.takeWhile_row hrow, h.dropWhile_row hrow]
  exact ⟨rfl, rfl⟩

theorem splitFunction_withoutCommas
    (h : (Waiting.splitFunction (withoutCommas ts)).1 = (Waiting.splitFunction ts).1) :
    (Waiting.splitFunction (withoutCommas ts)).2 = withoutCommas (Waiting.splitFunction ts).2 := by
  have hall := withoutCommas_split ts
  rw [← splitFunction_append_eq (withoutCommas ts), h] at hall
  exact List.append_cancel_left hall

end

namespace Waiting

/-- Does a token wait below a comma that the operator would send out without the comma? -/
def operatorBarred (w : Waiting) (sign : Char) : Bool :=
  match precedenceOfSign? sign with
  | none => false
  | some (precedence, side) =>
    let first := comesFirst precedence side
    (withoutCommas (w.stack.dropWhile first)).head?.any first

/-- Does a function wait below a comma that would be called without the comma by the parentheses
that close? -/
def callBarred (w : Waiting) : Bool :=
  let outside := (w.stack.dropWhile (· ≠ .openParen)).drop 1
  (splitFunction (withoutCommas outside)).1 ≠ (splitFunction outside).1

/-- Does a comma bar this token from what it would do without the comma? Where an operand ended in
front of the comma, a minus would be an operator, and not a prefix. -/
def barred (w : Waiting) (ended : Bool) : Token → Bool
  | .operator sign =>
    if sign = '-' ∧ w.afterOperand = false then ended else w.operatorBarred sign
  | .closeParen => w.callBarred
  | .number _ | .name _ | .valueOf _ | .function _ | .openParen | .percent | .negate => false

/-- Do the commas bar none of the tokens to come? `ended` tells whether an operand ends here, or in
front of the commas that stand here. -/
def unbarred (w : Waiting) (ended : Bool) : List Token → Bool
  | [] => true
  | t :: ts =>
    !w.barred ended t &&
      (w.step t).2.unbarred (if t = .operator ',' then ended else t.endsOperand) ts

end Waiting

/-- A row in which the commas bar no token. -/
def CommasBarNothing (ts : List Token) : Prop := Waiting.unbarred {} false ts = true

instance (ts : List Token) : Decidable (CommasBarNothing ts) :=
  inferInstanceAs (Decidable (_ = true))

namespace Waiting

variable {w : Waiting} {ended : Bool}

/-- The same where no comma waits. -/
def cleared (w : Waiting) (ended : Bool) : Waiting := ⟨withoutCommas w.stack, ended⟩

theorem holdOperator_cleared {sign : Char} (hsign : sign ≠ ',')
    (h : w.operatorBarred sign = false) :
    (w.cleared ended).holdOperator sign =
      (withoutCommas (w.holdOperator sign).1, (w.holdOperator sign).2.cleared false) := by
  have hkept : Token.operator sign ≠ .operator ',' := by simpa using hsign
  unfold operatorBarred at h
  unfold holdOperator
  cases hpower : precedenceOfSign? sign with
  | none => simp [cleared, hold, withoutCommas_cons hkept]
  | some power =>
    obtain ⟨precedence, side⟩ := power
    rw [hpower] at h
    have hnone := comma_not_mem_takeWhile w.stack precedence side
    obtain ⟨htake, hdrop⟩ := cut_withoutCommas (stopsAt_of_any h)
    dsimp only [cleared]
    rw [htake, hdrop, withoutCommas_eq_self hnone]
    simp [hold, withoutCommas_cons hkept]

theorem close_cleared (h : w.callBarred = false) :
    (w.cleared ended).close = (withoutCommas w.close.1, w.close.2.cleared true) := by
  obtain ⟨stack, afterOperand⟩ := w
  obtain ⟨inside, outer, rfl, hinside, houter⟩ := exists_groupStart stack
  obtain ⟨hstart, hdrop⟩ : GroupStart (withoutCommas outer) ∧
      (withoutCommas outer).drop 1 = withoutCommas (outer.drop 1) := houter.filter rfl
  have hclear : .openParen ∉ withoutCommas inside := fun hmem =>
    hinside (List.mem_of_mem_filter hmem)
  have hcall : (splitFunction (withoutCommas (outer.drop 1))).1 =
      (splitFunction (outer.drop 1)).1 := by
    unfold callBarred at h
    dsimp only at h
    rw [houter.stopsAt.dropWhile_row (forall_ne_openParen hinside)] at h
    simpa using h
  rw [close_group hinside houter, cleared, withoutCommas_append, close_group hclear hstart, hdrop,
    splitFunction_withoutCommas hcall, hcall, withoutCommas_append, withoutCommas_splitFunction]
  rfl

/-- A token that no comma bars does what it does without the commas. -/
theorem step_cleared {t : Token} (ht : t ≠ .operator ',')
    (hended : w.afterOperand = true → ended = true) (h : w.barred ended t = false) :
    (w.cleared ended).step t =
      (withoutCommas (w.step t).1, (w.step t).2.cleared t.endsOperand) := by
  cases t with
  | closeParen => exact close_cleared h
  | operator sign =>
    have hsign : sign ≠ ',' := by simpa using ht
    by_cases hminus : sign = '-' ∧ w.afterOperand = false
    · obtain ⟨rfl, hdue⟩ := hminus
      have hbarred : w.barred ended (.operator '-') = ended := if_pos ⟨rfl, hdue⟩
      rw [hbarred] at h
      subst h
      rw [step_minus hdue, step_minus (w := w.cleared false) rfl]
      rfl
    · have hoperator : ¬ (sign = '-' ∧ (w.cleared ended).afterOperand = false) := by
        rintro ⟨hsign, hdue⟩
        cases hafter : w.afterOperand with
        | false => exact hminus ⟨hsign, hafter⟩
        | true =>
          rw [hended hafter] at hdue
          cases hdue
      have hbarred : w.barred ended (.operator sign) = w.operatorBarred sign := if_neg hminus
      rw [hbarred] at h
      rw [step_operator hminus, step_operator hoperator]
      exact holdOperator_cleared hsign h
  | _ => exact rfl

end Waiting

theorem postfixFrom_cleared {w : Waiting} {ended : Bool} {ts : List Token}
    (hended : w.afterOperand = true → ended = true) (h : w.unbarred ended ts = true) :
    postfixFrom (w.cleared ended) (withoutCommas ts) = withoutCommas (postfixFrom w ts) := by
  induction ts generalizing w ended with
  | nil => exact List.filter_comm _ _ w.stack
  | cons t ts ih =>
    simp only [Waiting.unbarred, Bool.and_eq_true, Bool.not_eq_true'] at h
    obtain ⟨hfree, hrest⟩ := h
    by_cases ht : t = .operator ','
    · subst ht
      exact ih (w := w.hold (.operator ',')) (by rintro ⟨⟩) hrest
    · rw [if_neg ht] at hrest
      rw [withoutCommas_cons ht, postfixFrom_cons, postfixFrom_cons,
        Waiting.step_cleared ht hended hfree, withoutCommas_append, ih _ hrest]
      rw [w.afterOperand_step]
      exact id

theorem toPostfix_withoutCommas {ts : List Token} (h : CommasBarNothing ts) :
    toPostfix (withoutCommas ts) = withoutCommas (toPostfix ts) :=
  postfixFrom_cleared (w := {}) id h

/-! ## Minus signs behind commas -/

/-- Is this token a minus right behind commas that stand behind an operand? It is a prefix with the
commas, and an operator without them. -/
def Token.isTurned (afterOperand ended : Bool) (t : Token) : Bool :=
  t = .operator '-' ∧ afterOperand = false ∧ ended = true

/-- How many minus signs stand right behind commas that stand behind an operand. The flags tell
whether an operand ends here, and whether one ends here or in front of the commas that stand
here. -/
def minusesTurned (afterOperand ended : Bool) : List Token → Nat
  | [] => 0
  | t :: ts =>
    (t.isTurned afterOperand ended).toNat +
      minusesTurned t.endsOperand (if t = .operator ',' then ended else t.endsOperand) ts

section

variable {t : Token} {ts : List Token} {afterOperand ended : Bool}

theorem comma_not_mem_placed (h : t ≠ .operator ',') (afterOperand : Bool) :
    .operator ',' ∉ t.placed afterOperand := by
  intro hmem
  rcases eq_or_isMade_of_mem_placed hmem with rfl | hmade
  · exact h rfl
  · exact hmade

/-- A minus takes one operand more as an operator than as a prefix. -/
theorem netEffect_placed_ended (h : afterOperand = true → ended = true) (t : Token) :
    netEffect (t.placed afterOperand) =
      netEffect (t.placed ended) + (t.isTurned afterOperand ended).toNat := by
  cases t with
  | operator sign =>
    by_cases hminus : sign = '-'
    · subst hminus
      cases afterOperand with
      | true =>
        rw [h rfl]
        rfl
      | false => cases ended <;> rfl
    · simp [Token.placed, Token.isTurned, hminus]
  | _ => simp [Token.placed, Token.isTurned]

theorem netEffect_placed_withoutCommas (h : afterOperand = true → ended = true) :
    netEffect (withoutCommas (placed afterOperand ts)) =
      netEffect (placed ended (withoutCommas ts)) + minusesTurned afterOperand ended ts := by
  induction ts generalizing afterOperand ended with
  | nil => rfl
  | cons t ts ih =>
    rw [placed, withoutCommas_append, netEffect_append, minusesTurned]
    by_cases ht : t = .operator ','
    · subst ht
      have hlater : netEffect (withoutCommas (placed false ts)) =
          netEffect (placed ended (withoutCommas ts)) + minusesTurned false ended ts :=
        ih (by rintro ⟨⟩)
      have hnone : netEffect (withoutCommas ((Token.operator ',').placed afterOperand)) = 0 := rfl
      have hself : (Token.operator ',').isTurned afterOperand ended = false := rfl
      have hends : (Token.operator ',').endsOperand = false := rfl
      rw [hnone, hself, hends, withoutCommas_comma, hlater, if_pos rfl, Bool.toNat_false]
      omega
    · have hlater : netEffect (withoutCommas (placed t.endsOperand ts)) =
          netEffect (placed t.endsOperand (withoutCommas ts)) +
            minusesTurned t.endsOperand t.endsOperand ts := ih id
      rw [if_neg ht, withoutCommas_cons ht, placed, netEffect_append, hlater,
        withoutCommas_eq_self (comma_not_mem_placed ht afterOperand), netEffect_placed_ended h]
      omega

theorem comma_not_mem_withoutCommas (ts : List Token) : .operator ',' ∉ withoutCommas ts := by
  simp [withoutCommas]

/-- A row that has a value and in which a minus turns has no value without the commas. -/
theorem minusesTurned_eq_zero {env : Environment} {v u : Float}
    (hwith : evaluatePostfix env (toPostfix ts) = .ok v)
    (hwithout : evaluatePostfix env (toPostfix (withoutCommas ts)) = .ok u) :
    minusesTurned false false ts = 0 := by
  rw [← evaluatePostfix_withoutCommas] at hwith
  have hcomma := comma_not_mem_toPostfix (comma_not_mem_withoutCommas ts)
  have hturned : netEffect (withoutCommas (placed false ts)) =
      netEffect (placed false (withoutCommas ts)) + minusesTurned false false ts :=
    netEffect_placed_withoutCommas id
  have hsame : netEffect (withoutCommas (toPostfix ts)) =
      netEffect (withoutCommas (placed false ts)) :=
    netEffect_perm ((toPostfix_perm ts).filter _)
  rw [← hsame, netEffect_of_ok (comma_not_mem_withoutCommas _) hwith,
    ← netEffect_perm (toPostfix_perm _), netEffect_of_ok hcomma hwithout] at hturned
  omega

end

/-! ## The law -/

/-- A comma groups as a parenthesis that closes where its group ends. Where the commas bar no token
they can be left out, and where a minus turns into a prefix behind one they cannot. -/
theorem a_comma_groups_as_an_open_parenthesis_does (env : Environment) (ts : List Token) :
    evaluatePostfix env (toPostfix ts) = evaluatePostfix env (toPostfix (commasAsGroups [] ts)) ∧
      (CommasBarNothing ts → evaluatePostfix env (toPostfix (withoutCommas ts)) =
        evaluatePostfix env (toPostfix ts)) ∧
      (0 < minusesTurned false false ts → ∀ v, evaluatePostfix env (toPostfix ts) = .ok v →
        ∀ u, evaluatePostfix env (toPostfix (withoutCommas ts)) ≠ .ok u) := by
  refine ⟨?_, fun hfree => ?_, fun hturned v hwith u hwithout => ?_⟩
  · rw [toPostfix_commasAsGroups, evaluatePostfix_withoutCommas]
  · rw [toPostfix_withoutCommas hfree, evaluatePostfix_withoutCommas]
  · rw [minusesTurned_eq_zero hwith hwithout] at hturned
    exact Nat.lt_irrefl 0 hturned

/-- Behind an operand, in a group and at the end, commas can be left out. In front of a minus sign
that has an operand, they cannot. -/
theorem commas_that_bar_nothing_can_be_left_out :
    let ts := tokenize "(2,+3)*,4,"
    let us := tokenize "2,-3+"
    CommasBarNothing ts ∧ evaluatePostfix {} (toPostfix ts) = .ok 20 ∧
      evaluatePostfix {} (toPostfix (withoutCommas ts)) = evaluatePostfix {} (toPostfix ts) ∧
      0 < minusesTurned false false us ∧ evaluatePostfix {} (toPostfix us) = .ok (-1) ∧
      ∀ u, evaluatePostfix {} (toPostfix (withoutCommas us)) ≠ .ok u := by
  intro ts us
  have hfree : CommasBarNothing ts := by decide +kernel
  have htwenty : evaluatePostfix {} (toPostfix ts) = .ok 20 := by decide +kernel
  have hturned : 0 < minusesTurned false false us := by decide +kernel
  have hminus : evaluatePostfix {} (toPostfix us) = .ok (-1) := by decide +kernel
  exact ⟨hfree, htwenty, (a_comma_groups_as_an_open_parenthesis_does {} ts).2.1 hfree, hturned,
    hminus, (a_comma_groups_as_an_open_parenthesis_does {} us).2.2 hturned (-1) hminus⟩

/-- With the comma, the sum is the right operand of the product. Without it the product comes
first. -/
theorem a_comma_can_keep_a_sum_in_a_product :
    let ts := tokenize "2*,3+4"
    evaluatePostfix {} (toPostfix ts) = .ok 14 ∧
      evaluatePostfix {} (toPostfix (withoutCommas ts)) = .ok 10 ∧
      evaluatePostfix {} (toPostfix (withoutCommas ts)) ≠ .ok 14 := by
  decide +kernel

end Calculator
