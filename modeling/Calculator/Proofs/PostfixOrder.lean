-- The postfix order neither loses a token nor makes one up: parentheses go
-- away, names become their values, a minus sign where an operand is due becomes
-- a prefix, and everything else goes out exactly once.
import Mathlib.Data.List.TakeWhile
import Calculator.Proofs.OperatorStack

namespace Calculator

/-! ## What goes out in the end -/

/-- Does an operand end with this token? -/
def Token.endsOperand : Token → Bool
  | .number _ => true
  | .name _ => true
  | .valueOf _ => true
  | .percent => true
  | .closeParen => true
  | _ => false

/-- A typed token as it goes out. A minus sign goes out as a prefix unless it stands after an
operand. -/
def Token.placed (afterOperand : Bool) : Token → List Token
  | .name text => [.valueOf text]
  | .openParen => []
  | .closeParen => []
  | .operator sign => if sign = '-' ∧ afterOperand = false then [.negate] else [.operator sign]
  | token => [token]

/-- The tokens of a row as they go out, from left to right. -/
def placed (afterOperand : Bool) : List Token → List Token
  | [] => []
  | t :: ts => t.placed afterOperand ++ placed t.endsOperand ts

/-! ## One step -/

/-- Cutting the stack at a test that an opening parenthesis fails loses nothing but parentheses
from the part that waits on. -/
theorem takeWhile_append_filter {p : Token → Bool} (hp : p .openParen = false)
    (stack : List Token) :
    stack.takeWhile p ++ (stack.dropWhile p).filter (· ≠ .openParen) =
      stack.filter (· ≠ .openParen) := by
  have hinside : (stack.takeWhile p).filter (· ≠ .openParen) = stack.takeWhile p := by
    rw [List.filter_eq_self]
    intro token htoken
    have htest := List.mem_takeWhile_imp htoken
    simp only [decide_eq_true_eq]
    rintro rfl
    rw [hp] at htest
    cases htest
  calc stack.takeWhile p ++ (stack.dropWhile p).filter (· ≠ .openParen)
      = (stack.takeWhile p).filter (· ≠ .openParen) ++
          (stack.dropWhile p).filter (· ≠ .openParen) := by rw [hinside]
    _ = stack.filter (· ≠ .openParen) := by
        rw [← List.filter_append, List.takeWhile_append_dropWhile]

theorem filter_splitFunction (stack : List Token) :
    (Waiting.splitFunction stack).1 ++
      (Waiting.splitFunction stack).2.filter (· ≠ .openParen) = stack.filter (· ≠ .openParen) := by
  cases stack with
  | nil => rfl
  | cons top below => cases top <;> rfl

namespace Waiting

variable (w : Waiting)

theorem afterOperand_step (t : Token) : (w.step t).2.afterOperand = t.endsOperand := by
  cases t with
  | operator sign =>
    simp only [step]
    split
    · rfl
    · unfold holdOperator
      split <;> rfl
  | _ => rfl

/-- A parenthesis that closes sends out the first part of what the end sends out. -/
theorem flush_close : w.close.1 ++ w.close.2.flush = w.flush := by
  have hpartner : ((w.stack.dropWhile (· ≠ .openParen)).drop 1).filter (· ≠ .openParen) =
      (w.stack.dropWhile (· ≠ .openParen)).filter (· ≠ .openParen) := by
    rcases dropWhile_openParen w.stack with h | ⟨below, h⟩
    · rw [h]
      rfl
    · rw [h]
      rfl
  have hcut := takeWhile_append_filter (p := fun t => decide (t ≠ .openParen)) rfl w.stack
  simp only [close, flush, List.append_assoc, filter_splitFunction]
  rw [hpartner, hcut]

theorem flush_hold {t : Token} (h : t ≠ .openParen) : (w.hold t).flush = t :: w.flush := by
  simp [flush, hold, h]

/-- An operator goes in between what it sends out and what still waits. -/
theorem flush_holdOperator (sign : Char) :
    ((w.holdOperator sign).1 ++ (w.holdOperator sign).2.flush).Perm
      (.operator sign :: w.flush) := by
  unfold holdOperator
  cases precedenceOfSign? sign with
  | none => rw [flush_hold w (by simp), List.nil_append]
  | some power =>
    obtain ⟨precedence, side⟩ := power
    have hcut := takeWhile_append_filter (p := comesFirst precedence side) rfl w.stack
    rw [flush_hold _ (by simp), flush, flush, ← hcut]
    exact List.perm_middle

/-- One step sends out and keeps what was kept before, and the token. -/
theorem flush_step (t : Token) :
    ((w.step t).1 ++ (w.step t).2.flush).Perm (t.placed w.afterOperand ++ w.flush) := by
  cases t with
  | operator sign =>
    simp only [step, Token.placed]
    split
    · rw [flush_hold w (by simp)]
      rfl
    · exact w.flush_holdOperator sign
  | closeParen => exact List.Perm.of_eq w.flush_close
  | openParen => exact List.Perm.of_eq (by simp [step, flush, hold, Token.placed])
  | function text => exact List.Perm.of_eq (w.flush_hold (t := .function text) (by simp))
  | negate => exact List.Perm.of_eq (w.flush_hold (t := .negate) (by simp))
  | _ => rfl

end Waiting

/-! ## All steps -/

open scoped List

theorem postfixFrom_perm (ts : List Token) (w : Waiting) :
    (postfixFrom w ts).Perm (placed w.afterOperand ts ++ w.flush) := by
  induction ts generalizing w with
  | nil => rfl
  | cons t ts ih =>
    have hrest := ih (w.step t).2
    rw [w.afterOperand_step] at hrest
    calc postfixFrom w (t :: ts)
        = (w.step t).1 ++ postfixFrom (w.step t).2 ts := rfl
      _ ~ (w.step t).1 ++ (placed t.endsOperand ts ++ (w.step t).2.flush) := hrest.append_left _
      _ ~ placed t.endsOperand ts ++ ((w.step t).1 ++ (w.step t).2.flush) := by
        rw [← List.append_assoc, ← List.append_assoc]
        exact List.perm_append_comm.append_right _
      _ ~ placed t.endsOperand ts ++ (t.placed w.afterOperand ++ w.flush) :=
        (w.flush_step t).append_left _
      _ ~ placed w.afterOperand (t :: ts) ++ w.flush := by
        rw [← List.append_assoc, placed]
        exact List.perm_append_comm.append_right _

theorem toPostfix_perm (ts : List Token) : (toPostfix ts).Perm (placed false ts) := by
  have h := postfixFrom_perm ts {}
  rwa [show ({} : Waiting).flush = [] from rfl, List.append_nil] at h

/-! ## Where a token goes and where it comes from -/

theorem exists_of_mem_placed {ts : List Token} {afterOperand : Bool} {x : Token}
    (h : x ∈ placed afterOperand ts) : ∃ t ∈ ts, ∃ b, x ∈ t.placed b := by
  induction ts generalizing afterOperand with
  | nil => cases h
  | cons t ts ih =>
    rw [placed, List.mem_append] at h
    rcases h with h | h
    · exact ⟨t, List.mem_cons_self, afterOperand, h⟩
    · obtain ⟨u, hu, hx⟩ := ih h
      exact ⟨u, List.mem_cons_of_mem t hu, hx⟩

theorem exists_of_mem_toPostfix {ts : List Token} {x : Token} (h : x ∈ toPostfix ts) :
    ∃ t ∈ ts, ∃ b, x ∈ t.placed b :=
  exists_of_mem_placed ((toPostfix_perm ts).mem_iff.mp h)

theorem mem_toPostfix_of_mem {ts : List Token} {t : Token} (h : t ∈ ts)
    (hself : ∀ b, t ∈ t.placed b) : t ∈ toPostfix ts := by
  have hplaced : ∀ (us : List Token) (b : Bool), t ∈ us → t ∈ placed b us := by
    intro us
    induction us with
    | nil => exact fun _ hmem => hmem
    | cons u us ih =>
      intro b hmem
      rw [placed, List.mem_append]
      rcases List.mem_cons.mp hmem with rfl | hmem
      · exact Or.inl (hself b)
      · exact Or.inr (ih _ hmem)
  exact (toPostfix_perm ts).mem_iff.mpr (hplaced ts false h)

/-! ## The operands keep their order -/

namespace Token

/-- The tokens that never wait: operands, and the percent sign behind an operand. -/
def isOperand : Token → Bool
  | .number _ => true
  | .valueOf _ => true
  | .percent => true
  | _ => false

/-- A typed token as it goes out when it never waits. -/
def operand? : Token → Option Token
  | .number text => some (.number text)
  | .name text => some (.valueOf text)
  | .valueOf text => some (.valueOf text)
  | .percent => some .percent
  | _ => none

theorem filter_placed {t : Token} (h : t.operand? = none) (afterOperand : Bool) :
    (t.placed afterOperand).filter isOperand = [] := by
  cases t with
  | operator sign =>
    simp only [placed]
    split <;> rfl
  | function text => rfl
  | openParen => rfl
  | closeParen => rfl
  | negate => rfl
  | number text => cases h
  | name text => cases h
  | valueOf text => cases h
  | percent => cases h

theorem ne_of_mem_placed {t x : Token} {afterOperand : Bool} (h : x ∈ t.placed afterOperand) :
    x ≠ .openParen ∧ x ≠ .closeParen ∧ ∀ text, x ≠ .name text := by
  cases t with
  | operator sign =>
    simp only [placed] at h
    split at h
    · simp [List.mem_singleton.mp h]
    · simp [List.mem_singleton.mp h]
  | openParen => cases h
  | closeParen => cases h
  | _ => simp [List.mem_singleton.mp h]

end Token

namespace Waiting

/-- No operand waits. -/
def NoOperand (w : Waiting) : Prop := w.flush.filter Token.isOperand = []

variable {w : Waiting}

/-- One step sends out the token at once when it never waits, and otherwise no operand at all. -/
theorem NoOperand.step (h : w.NoOperand) (t : Token) :
    (w.step t).1.filter Token.isOperand = t.operand?.toList ∧ (w.step t).2.NoOperand := by
  cases hoperand : t.operand? with
  | some x =>
    have hself : w.step t = ([x], { w with afterOperand := true }) ∧ x.isOperand = true := by
      cases t <;> cases hoperand <;> exact ⟨rfl, rfl⟩
    rw [hself.1]
    exact ⟨List.filter_cons_of_pos hself.2, h⟩
  | none =>
    have hall := (w.flush_step t).filter Token.isOperand
    rw [List.filter_append, List.filter_append, Token.filter_placed hoperand, h] at hall
    exact List.append_eq_nil_iff.mp hall.eq_nil

end Waiting

theorem filter_postfixFrom (ts : List Token) {w : Waiting} (h : w.NoOperand) :
    (postfixFrom w ts).filter Token.isOperand = ts.filterMap Token.operand? := by
  induction ts generalizing w with
  | nil => exact h
  | cons t ts ih =>
    obtain ⟨hsent, hkept⟩ := h.step t
    rw [postfixFrom_cons, List.filter_append, hsent, ih hkept]
    cases hoperand : t.operand? with
    | none => rw [List.filterMap_cons_none hoperand]; rfl
    | some x => rw [List.filterMap_cons_some hoperand]; rfl

/-! ## The law -/

/-- The postfix order holds exactly the tokens of the row as they go out, and no parenthesis and no
name. Operands and percent signs stay in the order in which they were typed. -/
theorem the_postfix_order_keeps_every_token (ts : List Token) :
    (toPostfix ts).Perm (placed false ts) ∧
      (∀ t ∈ toPostfix ts, t ≠ .openParen ∧ t ≠ .closeParen ∧ ∀ text, t ≠ .name text) ∧
      (toPostfix ts).filter Token.isOperand = ts.filterMap Token.operand? := by
  refine ⟨toPostfix_perm ts, fun t ht => ?_, filter_postfixFrom ts rfl⟩
  obtain ⟨u, -, afterOperand, hplaced⟩ := exists_of_mem_toPostfix ht
  exact Token.ne_of_mem_placed hplaced

end Calculator
