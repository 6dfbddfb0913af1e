-- Whether tokens in postfix order have a value, and why not, is told by their
-- shape alone: the values of the operands do not matter, only how many there
-- are. So a text is refused for one of its tokens, or because an operand is
-- missing or left over, unless its value is not finite.
import Calculator.Shape

namespace Calculator

section

variable (env : Environment) (operands : Operands)

theorem Operands.shape_unary (f : Float → Float) :
    (operands.unary f).map List.length = Shape.replace 1 operands.length := by
  cases operands with
  | nil => rfl
  | cons a rest => simp [unary, Shape.replace, Except.map]

theorem Operands.shape_binary (f : Float → Float → Float) :
    (operands.binary f).map List.length = Shape.replace 2 operands.length := by
  match operands with
  | [] => rfl
  | [_] => rfl
  | b :: a :: rest => simp [binary, Shape.replace, Except.map]

/-- One token changes the number of operands by its shape. -/
theorem Environment.shape_step (t : Token) :
    (env.step operands t).map List.length = Shape.step operands.length t := by
  cases t with
  | number text =>
    simp only [step, Shape.step]
    cases Double.ofText? text <;> rfl
  | operator sign =>
    simp only [step, Shape.step]
    by_cases hcomma : sign = ','
    · subst hcomma
      rfl
    · rw [if_neg hcomma]
      cases hop : Operator.ofSign? sign with
      | none => rfl
      | some op =>
        cases op with
        | separate => exact absurd hop (Operator.ofSign?_ne_separate hcomma)
        | _ => exact operands.shape_binary _
  | function text =>
    simp only [step, Shape.step]
    cases NamedFunction.ofName? text with
    | none => rfl
    | some f => exact operands.shape_unary _
  | percent => exact operands.shape_unary _
  | negate => exact operands.shape_unary _
  | _ => rfl

theorem Environment.shape_run (ts : List Token) :
    ((env.run operands ts).bind Operands.single).map (fun _ => ()) =
      Shape.scan operands.length ts := by
  induction ts generalizing operands with
  | nil =>
    match operands with
    | [] => rfl
    | [v] => rfl
    | b :: a :: rest => simp [run, Except.bind, Operands.single, Except.map, Shape.scan]
  | cons t ts ih =>
    have hstep := env.shape_step operands t
    unfold run Shape.scan
    rw [← hstep]
    cases env.step operands t with
    | ok next => exact ih next
    | error cause => rfl

theorem shape_evaluatePostfix (ts : List Token) :
    (evaluatePostfix env ts).map (fun _ => ()) = Shape.scan 0 ts := by
  calc (evaluatePostfix env ts).map (fun _ => ())
      = ((env.run [] ts).bind Operands.single).map (fun _ => ()) := by
        unfold evaluatePostfix
        cases env.run [] ts <;> rfl
    _ = Shape.scan 0 ts := env.shape_run [] ts

end

section

variable {env : Environment} {ts : List Token}

theorem scan_of_ok {v : Float} (h : evaluatePostfix env ts = .ok v) : Shape.scan 0 ts = .ok () := by
  rw [← shape_evaluatePostfix env, h]
  rfl

theorem scan_of_error {cause : EvalError} (h : evaluatePostfix env ts = .error cause) :
    Shape.scan 0 ts = .error cause := by
  rw [← shape_evaluatePostfix env, h]
  rfl

theorem error_of_scan {cause : EvalError} (h : Shape.scan 0 ts = .error cause) :
    evaluatePostfix env ts = .error cause := by
  rw [← shape_evaluatePostfix env] at h
  cases hvalue : evaluatePostfix env ts with
  | ok v =>
    rw [hvalue] at h
    cases h
  | error cause' =>
    rw [hvalue] at h
    cases h
    rfl

end

/-! ## Texts -/

/-- A text that has a value is blank and worth zero, or its postfix order has that value, and the
value is finite. -/
theorem evaluate_ok_cases {env : Environment} {text : String} {v : Float}
    (h : evaluate env text = .ok v) : plain text = "" ∧ v = 0 ∨
      evaluatePostfix env (toPostfix (tokenize (plain text))) = .ok v ∧ v.isFinite = true := by
  unfold evaluate at h
  by_cases hempty : plain text = ""
  · rw [if_pos hempty] at h
    cases h
    exact Or.inl ⟨hempty, rfl⟩
  · rw [if_neg hempty] at h
    split at h
    · rename_i w hvalue
      unfold finite at h
      split at h
      · rename_i hfinite
        cases h
        exact Or.inr ⟨hvalue, hfinite⟩
      · cases h
    · cases h

/-- Why a text is refused is told by its shape, unless its value is not finite. -/
theorem evaluate_eq_error_iff {env : Environment} {s : String} {cause : EvalError}
    (hs : plain s ≠ "") (hcause : cause ≠ .notFinite) :
    evaluate env s = .error cause ↔
      Shape.scan 0 (toPostfix (tokenize (plain s))) = .error cause := by
  unfold evaluate
  rw [if_neg hs]
  constructor
  · intro h
    split at h
    · unfold finite at h
      split at h
      · cases h
      · cases h
        exact absurd rfl hcause
    · rename_i hvalue
      cases h
      exact scan_of_error hvalue
  · intro h
    rw [error_of_scan h]

/-! ## One token -/

/-- The error that a token is, whatever operands there are: its text is no number, its sign the
sign of no operator, or its name the name of no function. -/
inductive Token.Causes : Token → EvalError → Prop where
  | number {text : String} (h : Double.ofText? text = none) :
      Causes (.number text) (.invalidNumber text)
  | operator {sign : Char} (h : Operator.ofSign? sign = none) :
      Causes (.operator sign) (.unknownOperator sign)
  | function {name : String} (h : NamedFunction.ofName? name = none) :
      Causes (.function name) (.unknownFunction name)

/-- How many operands a token takes. -/
def Token.arity : Token → Nat
  | .number _ => 0
  | .name _ => 0
  | .valueOf _ => 0
  | .operator _ => 2
  | _ => 1

namespace Shape

variable {depth next needed : Nat} {t : Token} {ts : List Token} {cause : EvalError}

theorem of_replace (h : replace needed depth = .ok next) :
    needed ≤ depth ∧ next = depth - needed + 1 := by
  unfold replace at h
  split at h
  · rename_i hle
    cases h
    exact ⟨hle, rfl⟩
  · cases h

/-- A comma leaves the operands alone. Any other token puts one operand in the place of those that
it takes. -/
theorem step_cases (h : step depth t = .ok next) :
    t = .operator ',' ∧ next = depth ∨ t.arity ≤ depth ∧ next = depth - t.arity + 1 := by
  cases t with
  | number text =>
    simp only [step] at h
    split at h
    · cases h
      exact Or.inr ⟨depth.zero_le, rfl⟩
    · cases h
  | operator sign =>
    simp only [step] at h
    split at h
    · rename_i hcomma
      cases h
      exact Or.inl ⟨congrArg Token.operator hcomma, rfl⟩
    · split at h
      · exact Or.inr (of_replace h)
      · cases h
  | function text =>
    simp only [step] at h
    split at h
    · cases h
    · exact Or.inr (of_replace h)
  | percent => exact Or.inr (of_replace h)
  | negate => exact Or.inr (of_replace h)
  | name text =>
    cases h
    exact Or.inr ⟨depth.zero_le, rfl⟩
  | valueOf text =>
    cases h
    exact Or.inr ⟨depth.zero_le, rfl⟩
  | openParen => cases h
  | closeParen => cases h

/-- The operands never run out. -/
theorem step_pos (h : step depth t = .ok next) (hpos : 0 < depth) : 0 < next := by
  rcases step_cases h with ⟨-, rfl⟩ | ⟨-, rfl⟩
  · exact hpos
  · exact Nat.succ_pos _

theorem error_replace (h : replace needed depth = .error cause) : cause = .malformed := by
  unfold replace at h
  split at h
  · cases h
  · cases h
    rfl

/-- A token fails for want of an operand, or it is the cause itself. -/
theorem cause_step (h : step depth t = .error cause) : cause = .malformed ∨ t.Causes cause := by
  cases t with
  | number text =>
    simp only [step] at h
    split at h
    · cases h
    · rename_i hnumber
      cases h
      exact Or.inr (.number (Option.not_isSome_iff_eq_none.mp hnumber))
  | operator sign =>
    simp only [step] at h
    split at h
    · cases h
    · split at h
      · exact Or.inl (error_replace h)
      · rename_i hop
        cases h
        exact Or.inr (.operator (Option.not_isSome_iff_eq_none.mp hop))
  | function name =>
    simp only [step] at h
    split at h
    · rename_i hf
      cases h
      exact Or.inr (.function hf)
    · exact Or.inl (error_replace h)
  | percent => exact Or.inl (error_replace h)
  | negate => exact Or.inl (error_replace h)
  | openParen =>
    cases h
    exact Or.inl rfl
  | closeParen =>
    cases h
    exact Or.inl rfl
  | name text => cases h
  | valueOf text => cases h

theorem cause_scan (h : scan depth ts = .error cause) :
    cause = .malformed ∨ ∃ t ∈ ts, t.Causes cause := by
  induction ts generalizing depth with
  | nil =>
    unfold scan at h
    split at h
    · cases h
    · cases h
      exact Or.inl rfl
  | cons t ts ih =>
    unfold scan at h
    split at h
    · rcases ih h with hmalformed | ⟨u, hu, hcause⟩
      · exact Or.inl hmalformed
      · exact Or.inr ⟨u, List.mem_cons_of_mem t hu, hcause⟩
    · rename_i hstep
      cases h
      rcases cause_step hstep with hmalformed | hcause
      · exact Or.inl hmalformed
      · exact Or.inr ⟨t, List.mem_cons_self, hcause⟩

end Shape

/-! ## The law -/

/-- A value, or one that is refused because it is not finite. -/
def HasValue (result : Except EvalError Float) : Prop :=
  (∃ v, result = .ok v) ∨ result = .error .notFinite

theorem hasValue_finite (v : Float) : HasValue (finite v) := by
  unfold finite
  split
  · exact Or.inl ⟨v, rfl⟩
  · exact Or.inr rfl

section

variable {env : Environment} {ts : List Token} {text : String}

theorem exists_ok_of_scan (h : Shape.scan 0 ts = .ok ()) :
    ∃ v, evaluatePostfix env ts = .ok v := by
  cases hvalue : evaluatePostfix env ts with
  | ok v => exact ⟨v, rfl⟩
  | error cause =>
    rw [scan_of_error hvalue] at h
    cases h

theorem hasValue_of_scan (h : Shape.scan 0 (toPostfix (tokenize (plain text))) = .ok ()) :
    HasValue (evaluate env text) := by
  unfold evaluate
  by_cases hempty : plain text = ""
  · rw [if_pos hempty]
    exact Or.inl ⟨0, rfl⟩
  · obtain ⟨v, hvalue⟩ : ∃ v, evaluatePostfix env _ = .ok v := exists_ok_of_scan h
    rw [if_neg hempty, hvalue]
    exact hasValue_finite v

end

/-- The count of operands decides whether tokens in postfix order have a value, and which error they
are. So another unit or another answer only changes one value, finite or not, into another. -/
theorem the_shape_alone_decides_between_value_and_error :
    (∀ env ts, (∃ v, evaluatePostfix env ts = .ok v) ↔ Shape.scan 0 ts = .ok ()) ∧
    (∀ env ts cause, evaluatePostfix env ts = .error cause ↔ Shape.scan 0 ts = .error cause) ∧
    ∀ env env' text, evaluate env text = evaluate env' text ∨
      HasValue (evaluate env text) ∧ HasValue (evaluate env' text) := by
  refine ⟨fun env ts => ⟨?_, exists_ok_of_scan⟩, fun env ts cause => ⟨scan_of_error, error_of_scan⟩,
    fun env env' text => ?_⟩
  · rintro ⟨v, hvalue⟩
    exact scan_of_ok hvalue
  · cases hshape : Shape.scan 0 (toPostfix (tokenize (plain text))) with
    | ok done => exact Or.inr ⟨hasValue_of_scan hshape, hasValue_of_scan hshape⟩
    | error cause =>
      have herror : ∀ env, evaluatePostfix env _ = .error cause := fun env => error_of_scan hshape
      left
      simp only [evaluate]
      rw [herror env, herror env']

end Calculator
