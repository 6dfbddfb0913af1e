-- What one command does to each register, and what holds of every state that
-- commands lead to. The last answer is finite in all of them.
import Calculator.History
import Calculator.Proofs.RunShape

namespace Calculator

theorem finite_of_evaluate {env : Environment} {text : String} {v : Float}
    (h : evaluate env text = .ok v) : v.isFinite = true := by
  rcases evaluate_ok_cases h with ⟨-, rfl⟩ | ⟨-, hfinite⟩
  · decide
  · exact hfinite

namespace Registers

/-! ## One command -/

section

variable (r : Registers) (command : Command)

theorem calculate_of_ok {text : String} {v : Float} (h : r.evaluate text = .ok v) :
    r.calculate text = ({ r with answer := v }, display v) := by
  simp only [calculate, h]

theorem calculate_of_error {text : String} {cause : EvalError}
    (h : r.evaluate text = .error cause) :
    r.calculate text = (r, Display.error) := by
  simp only [calculate, h]

/-- A key that is typed changes the typed text and SHIFT only. -/
theorem insert_keeps (key : String) : (r.insert key).answer = r.answer ∧
    (r.insert key).memory = r.memory ∧ (r.insert key).mode = r.mode := by
  unfold insert
  split
  · split
    · exact ⟨rfl, rfl, rfl⟩
    · exact ⟨rfl, rfl, rfl⟩
  · exact ⟨rfl, rfl, rfl⟩

/-- A calculation changes the answer only. -/
theorem calculate_keeps (text : String) : (r.calculate text).1.expression = r.expression ∧
    (r.calculate text).1.memory = r.memory ∧ (r.calculate text).1.mode = r.mode := by
  cases h : r.evaluate text with
  | ok v =>
    rw [r.calculate_of_ok h]
    exact ⟨rfl, rfl, rfl⟩
  | error cause =>
    rw [r.calculate_of_error h]
    exact ⟨rfl, rfl, rfl⟩

theorem typedValue_eq : r.typedValue = r.typed?.getD 0 := by
  have htyped : r.typed? = (r.evaluate r.expression).toOption := rfl
  unfold typedValue
  rw [htyped]
  cases r.evaluate r.expression with
  | ok v => rfl
  | error cause => rfl

/-- A command that gives an answer stores it, and every other command keeps the last one. -/
theorem answer_perform :
    (r.perform command).1.answer = (answered? (r, command)).getD r.answer := by
  cases command with
  | insert key => exact (r.insert_keeps key).1
  | calculate =>
    have hanswered : answered? (r, .calculate) = (r.evaluate r.expression).toOption := rfl
    rw [hanswered, perform]
    cases h : r.evaluate r.expression with
    | ok v => rw [r.calculate_of_ok h]; rfl
    | error cause => rw [r.calculate_of_error h]; rfl
  | _ => rfl

theorem memory_perform : (r.perform command).1.memory = accumulate r.memory (r, command) := by
  cases command with
  | insert key => exact (r.insert_keeps key).2.1
  | calculate => exact (r.calculate_keeps r.expression).2.1
  | addToMemory => rw [accumulate, ← typedValue_eq]; rfl
  | subtractFromMemory => rw [accumulate, ← typedValue_eq]; rfl
  | _ => rfl

/-- A command keeps the memory, or adds the value of the typed text to it or subtracts it. -/
theorem memory_perform_cases : (r.perform command).1.memory = r.memory ∨
    (r.perform command).1.memory = r.memory + r.typedValue ∨
    (r.perform command).1.memory = r.memory - r.typedValue := by
  rw [memory_perform, typedValue_eq]
  cases command with
  | addToMemory => exact Or.inr (Or.inl rfl)
  | subtractFromMemory => exact Or.inr (Or.inr rfl)
  | _ => exact Or.inl rfl

theorem mode_perform : (r.perform command).1.mode =
    if command = .toggleAngle then r.mode.toggle else r.mode := by
  cases command with
  | insert key => exact (r.insert_keeps key).2.2
  | calculate => exact (r.calculate_keeps r.expression).2.2
  | _ => rfl

end

/-! ## Every state that commands lead to -/

/-- What holds at the start, and is kept by every command, holds of every reachable state. -/
theorem reachable_induction {P : Registers → Prop} (start : P {})
    (step : ∀ r command, P r → P (r.perform command).1) {r : Registers} (h : Reachable r) :
    P r := by
  have hrun : ∀ commands r, P r → P (r.performAll commands) := by
    intro commands
    induction commands with
    | nil => exact fun r hr => hr
    | cons command rest ih => exact fun r hr => ih _ (step r command hr)
  obtain ⟨commands, rfl⟩ := h
  exact hrun commands {} start

theorem finite_of_answered {r : Registers} {command : Command} {v : Float}
    (h : answered? (r, command) = some v) : v.isFinite = true := by
  cases command with
  | calculate =>
    have htyped : (r.evaluate r.expression).toOption = some v := h
    cases hvalue : r.evaluate r.expression with
    | ok w =>
      rw [hvalue] at htyped
      cases htyped
      exact finite_of_evaluate hvalue
    | error cause =>
      rw [hvalue] at htyped
      cases htyped
  | _ => cases h

theorem isFinite_answer {r : Registers} (h : Reachable r) : r.answer.isFinite = true := by
  refine reachable_induction (P := fun r => r.answer.isFinite = true) (by decide) ?_ h
  intro r command hr
  rw [answer_perform]
  cases hanswered : answered? (r, command) with
  | none => exact hr
  | some v => exact finite_of_answered hanswered

end Registers

end Calculator
