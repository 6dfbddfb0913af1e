-- Two kinds of slips in a row of tokens: an operand that starts where none is
-- due, and an operand that is due and does not come. The evaluation counts
-- operands and nothing else, so in a row that it accepts there are as many
-- slips of the one kind as of the other.
import Mathlib
import Calculator.Proofs.PostfixOrder
import Calculator.Proofs.RunShape

namespace Calculator

/-! ## Slips -/

/-- The slips in the tokens so far. -/
structure Slips where
  /-- Does an operand end here? If not, an operand is due. -/
  afterOperand : Bool := false
  /-- Operands that start right after another operand. -/
  juxtaposed : Nat := 0
  /-- Places where an operand is due and does not come. -/
  missing : Nat := 0
deriving DecidableEq, Repr

namespace Slips

/-- A token that starts an operand, and maybe ends it as well. -/
def start (s : Slips) (ends : Bool) : Slips :=
  ⟨ends, if s.afterOperand then s.juxtaposed + 1 else s.juxtaposed, s.missing⟩

/-- A token that stands after an operand, and maybe ends one itself. -/
def need (s : Slips) (ends : Bool) : Slips :=
  ⟨ends, s.juxtaposed, if s.afterOperand then s.missing else s.missing + 1⟩

/-- One more token. A minus sign where an operand is due is a prefix, and no slip. -/
def step (s : Slips) : Token → Slips
  | .number _ => s.start true
  | .name _ => s.start true
  | .valueOf _ => s.start true
  | .function _ => s.start false
  | .openParen => s.start false
  | .negate => s.start false
  | .percent => s.need true
  | .closeParen => s.need true
  | .operator sign => if sign = '-' ∧ s.afterOperand = false then s else s.need false

/-- Operands that the slips leave over, the one that ends here with them. -/
def balance (s : Slips) : Int :=
  s.juxtaposed - s.missing + if s.afterOperand then 1 else 0

theorem balance_start (s : Slips) (ends : Bool) :
    (s.start ends).balance = s.balance + if ends then 1 else 0 := by
  unfold balance start
  cases s.afterOperand with
  | false => simp
  | true =>
    simp
    omega

theorem balance_need (s : Slips) (ends : Bool) :
    (s.need ends).balance = s.balance - 1 + if ends then 1 else 0 := by
  unfold balance need
  cases s.afterOperand with
  | false =>
    simp
    omega
  | true => simp

end Slips

/-- The slips in a row of tokens. At the end an operand has to end too. -/
def slips (ts : List Token) : Slips :=
  (ts.foldl Slips.step {}).need true

/-! ## What tokens do to the number of operands -/

/-- How many operands one token adds in postfix order. -/
def Token.effect : Token → Int
  | .number _ => 1
  | .name _ => 1
  | .valueOf _ => 1
  | .operator _ => -1
  | _ => 0

theorem Token.effect_eq (t : Token) : t.effect = 1 - t.arity := by
  cases t <;> rfl

/-- How many operands a row of tokens adds in postfix order. -/
def netEffect (ts : List Token) : Int := (ts.map Token.effect).sum

section

variable {ts us : List Token} {t : Token}

theorem netEffect_nil : netEffect [] = 0 := rfl

theorem netEffect_cons : netEffect (t :: ts) = t.effect + netEffect ts := by
  simp [netEffect]

theorem netEffect_append : netEffect (ts ++ us) = netEffect ts + netEffect us := by
  simp [netEffect]

theorem netEffect_perm (h : ts.Perm us) : netEffect ts = netEffect us :=
  (h.map Token.effect).sum_eq

end

/-! ## The slips show in the postfix order -/

/-- One token changes the balance of the slips by the operands that it adds where it goes out. -/
theorem Slips.balance_step (s : Slips) (t : Token) :
    (s.step t).balance = s.balance + netEffect (t.placed s.afterOperand) := by
  cases t with
  | operator sign =>
    simp only [step, Token.placed]
    split
    · simp [netEffect, Token.effect]
    · simp only [balance_need, netEffect_cons, netEffect_nil, Token.effect, Bool.false_eq_true,
        if_false]
      omega
  | _ =>
    simp only [step, Token.placed, balance_start, balance_need, netEffect_cons, netEffect_nil,
      Token.effect, Bool.false_eq_true, if_true, if_false] <;>
    omega

theorem Slips.afterOperand_step (s : Slips) (t : Token) :
    (s.step t).afterOperand = t.endsOperand := by
  cases t with
  | operator sign =>
    simp only [step]
    split
    · rename_i hprefix
      exact hprefix.2
    · rfl
  | _ => rfl

theorem Slips.balance_foldl (ts : List Token) (s : Slips) :
    (ts.foldl step s).balance = s.balance + netEffect (placed s.afterOperand ts) := by
  induction ts generalizing s with
  | nil => rw [List.foldl_nil, placed, netEffect_nil, Int.add_zero]
  | cons t ts ih =>
    rw [List.foldl_cons, ih, s.balance_step, s.afterOperand_step, placed, netEffect_append]
    omega

/-- The postfix order of a row leaves one operand, and more or fewer by the slips in the row. -/
theorem netEffect_toPostfix (ts : List Token) :
    netEffect (toPostfix ts) = 1 + (slips ts).juxtaposed - (slips ts).missing := by
  have hall := Slips.balance_foldl ts {}
  have hend := (ts.foldl Slips.step {}).balance_need true
  have hslips : (slips ts).balance = (slips ts).juxtaposed - (slips ts).missing + 1 := rfl
  have hstart : ({} : Slips).balance = 0 := rfl
  have hplaced : netEffect (placed ({} : Slips).afterOperand ts) = netEffect (toPostfix ts) :=
    (netEffect_perm (toPostfix_perm ts)).symm
  rw [hstart, hplaced] at hall
  simp only [if_true] at hend
  simp only [slips] at hslips ⊢
  omega

/-! ## The evaluation counts operands -/

namespace Shape

variable {depth next : Nat} {t : Token} {ts : List Token}

theorem depth_step (h : step depth t = .ok next) (ht : t ≠ .operator ',') :
    (next : Int) = depth + t.effect := by
  rcases step_cases h with ⟨hcomma, -⟩ | ⟨hle, rfl⟩
  · exact absurd hcomma ht
  · rw [t.effect_eq]
    omega

theorem netEffect_scan (h : scan depth ts = .ok ()) (hcomma : .operator ',' ∉ ts) :
    depth + netEffect ts = 1 := by
  induction ts generalizing depth with
  | nil =>
    unfold scan at h
    split at h
    · rename_i hone
      rw [hone]
      rfl
    · cases h
  | cons t ts ih =>
    unfold scan at h
    split at h
    · rename_i next hnext
      have hfirst := depth_step hnext fun ht => hcomma (ht ▸ List.mem_cons_self)
      have hrest := ih h fun ht => hcomma (List.mem_cons_of_mem t ht)
      rw [netEffect_cons]
      omega
    · cases h

end Shape

/-! ## What the postfix order is made of -/

/-- A token that is made when tokens are put in order, and never typed. -/
def Token.IsMade : Token → Prop
  | .valueOf _ => True
  | .negate => True
  | _ => False

theorem eq_or_isMade_of_mem_placed {t x : Token} {b : Bool} (h : x ∈ t.placed b) :
    x = t ∨ x.IsMade := by
  cases t with
  | operator sign =>
    simp only [Token.placed] at h
    split at h
    · exact Or.inr (List.mem_singleton.mp h ▸ trivial)
    · exact Or.inl (List.mem_singleton.mp h)
  | name text => exact Or.inr (List.mem_singleton.mp h ▸ trivial)
  | openParen => cases h
  | closeParen => cases h
  | _ => exact Or.inl (List.mem_singleton.mp h)

theorem mem_toPostfix {ts : List Token} {x : Token} (h : x ∈ toPostfix ts) :
    x ∈ ts ∨ x.IsMade := by
  obtain ⟨t, ht, b, hx⟩ := exists_of_mem_toPostfix h
  rcases eq_or_isMade_of_mem_placed hx with rfl | hmade
  · exact Or.inl ht
  · exact Or.inr hmade

theorem comma_not_mem_toPostfix {ts : List Token} (h : .operator ',' ∉ ts) :
    .operator ',' ∉ toPostfix ts := by
  intro hmem
  rcases mem_toPostfix hmem with hmem | hmade
  · exact h hmem
  · exact hmade

/-! ## Accepted rows, and refused ones -/

theorem netEffect_of_ok {env : Environment} {ts : List Token} {v : Float}
    (hcomma : .operator ',' ∉ ts) (h : evaluatePostfix env ts = .ok v) : netEffect ts = 1 := by
  have hcount := Shape.netEffect_scan (scan_of_ok h) hcomma
  omega

theorem juxtaposed_eq_missing {env : Environment} {ts : List Token} {v : Float}
    (hcomma : .operator ',' ∉ ts) (h : evaluatePostfix env (toPostfix ts) = .ok v) :
    (slips ts).juxtaposed = (slips ts).missing := by
  have hcount := netEffect_of_ok (comma_not_mem_toPostfix hcomma) h
  have hnet := netEffect_toPostfix ts
  omega

/-- A token that the evaluation knows: its text is a number, its sign the sign of an operator, or
its name the name of a function. -/
def Token.Known : Token → Prop
  | .number text => (Double.ofText? text).isSome
  | .operator sign => (Operator.ofSign? sign).isSome
  | .function text => (NamedFunction.ofName? text).isSome
  | _ => True

theorem Token.known_of_isMade {t : Token} (h : t.IsMade) : t.Known := by
  cases t with
  | valueOf text => trivial
  | negate => trivial
  | _ => exact h.elim

theorem Token.Known.not_causes {t : Token} {cause : EvalError} (ht : t.Known) :
    ¬ t.Causes cause := by
  rintro (hnumber | hop | hf)
  · simp [Known, hnumber] at ht
  · simp [Known, hop] at ht
  · simp [Known, hf] at ht

namespace Shape

variable {depth next : Nat} {cause : EvalError} {t : Token} {ts : List Token}

theorem error_scan (hts : ∀ t ∈ ts, t.Known) (h : scan depth ts = .error cause) :
    cause = .malformed := by
  rcases cause_scan h with hmalformed | ⟨t, ht, hcause⟩
  · exact hmalformed
  · exact absurd hcause (hts t ht).not_causes

theorem known_step (h : step depth t = .ok next) : t.Known := by
  cases t with
  | number text =>
    simp only [step] at h
    split at h
    · rename_i hnumber
      exact hnumber
    · cases h
  | operator sign =>
    simp only [step] at h
    split at h
    · rename_i hcomma
      rw [hcomma]
      rfl
    · split at h
      · rename_i hop
        exact hop
      · cases h
  | function text =>
    simp only [step] at h
    split at h
    · cases h
    · rename_i hf
      simp [Token.Known, hf]
  | _ => trivial

theorem known_scan (h : scan depth ts = .ok ()) : ∀ t ∈ ts, t.Known := by
  induction ts generalizing depth with
  | nil => simp
  | cons t ts ih =>
    unfold scan at h
    split at h
    · rename_i hstep
      rw [List.forall_mem_cons]
      exact ⟨known_step hstep, ih h⟩
    · cases h

end Shape

section

variable {env : Environment} {ts : List Token}

theorem known_of_ok {v : Float} (h : evaluatePostfix env (toPostfix ts) = .ok v) {t : Token}
    (ht : t ∈ ts) : t.Known := by
  have hknown : ∀ t ∈ toPostfix ts, t.Known := Shape.known_scan (scan_of_ok h)
  cases t with
  | operator sign =>
    by_cases hminus : sign = '-'
    · rw [hminus]
      rfl
    · exact hknown _ (mem_toPostfix_of_mem ht fun b => by simp [Token.placed, hminus])
  | number text => exact hknown _ (mem_toPostfix_of_mem ht fun b => List.mem_singleton_self _)
  | function name => exact hknown _ (mem_toPostfix_of_mem ht fun b => List.mem_singleton_self _)
  | _ => trivial

theorem known_sign {v : Float} (h : evaluatePostfix env (toPostfix ts) = .ok v) {sign : Char}
    (hsign : .operator sign ∈ ts) : (Operator.ofSign? sign).isSome = true :=
  known_of_ok h hsign

/-- A row of known tokens has a value, or it is malformed. -/
theorem error_toPostfix {cause : EvalError} (hts : ∀ t ∈ ts, t.Known)
    (h : evaluatePostfix env (toPostfix ts) = .error cause) : cause = .malformed := by
  have hcode : ∀ t ∈ toPostfix ts, t.Known := by
    intro t ht
    rcases mem_toPostfix ht with hmem | hmade
    · exact hts t hmem
    · exact Token.known_of_isMade hmade
  exact Shape.error_scan hcode (scan_of_error h)

end

end Calculator
