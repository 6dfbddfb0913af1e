-- What holds of the registers in every state that commands lead to: SHIFT and ALPHA
-- are never pending together, the answer is finite, and the memory, which may be
-- infinite, is some number and never the zero with a minus sign.
import Calculator.Proofs.RegisterSteps
import Calculator.Proofs.ZeroSums

namespace Calculator

/-! ## SHIFT and ALPHA as two flags -/

/-- SHIFT and ALPHA with a flag each, which could both be set. -/
structure Flags where
  shift : Bool := false
  alpha : Bool := false
deriving DecidableEq, Repr

/-- What a command does to the flags. Each of the two keys turns its own flag over and takes the
other one back, and SHIFT is used up by a key that has an alternative. -/
def Flags.perform (flags : Flags) : Command → Flags
  | .shift => ⟨!flags.shift, false⟩
  | .alpha => ⟨false, !flags.alpha⟩
  | .insert key =>
    if flags.shift ∧ (shiftAlternative? key).isSome then { flags with shift := false } else flags
  | _ => flags

/-- The flags of what is pending. -/
def Modifier.flags : Modifier → Flags
  | none => ⟨false, false⟩
  | shift => ⟨true, false⟩
  | alpha => ⟨false, true⟩

namespace Registers

section

variable (r : Registers)

theorem flags_insert (key : String) :
    (r.insert key).modifier.flags = r.modifier.flags.perform (.insert key) := by
  unfold insert
  by_cases hshift : r.modifier = .shift
  · rw [if_pos hshift, hshift]
    cases halternative : shiftAlternative? key with
    | none => simp [type, hshift, Modifier.flags, Flags.perform, halternative]
    | some alternative => simp [Modifier.flags, Flags.perform, halternative]
  · rw [if_neg hshift]
    cases hpending : r.modifier with
    | shift => exact absurd hpending hshift
    | none => simp [type, hpending, Modifier.flags, Flags.perform]
    | alpha => simp [type, hpending, Modifier.flags, Flags.perform]

theorem modifier_calculate (text : String) : (r.calculate text).1.modifier = r.modifier := by
  cases h : r.evaluate text with
  | ok v => rw [r.calculate_of_ok h]
  | error cause => rw [r.calculate_of_error h]

/-- One command does the same to the flags as to what is pending. -/
theorem flags_perform (command : Command) :
    (r.perform command).1.modifier.flags = r.modifier.flags.perform command := by
  cases command with
  | insert key => exact r.flags_insert key
  | shift =>
    simp only [perform]
    cases r.modifier <;> rfl
  | alpha =>
    simp only [perform]
    cases r.modifier <;> rfl
  | calculate => exact congrArg Modifier.flags (r.modifier_calculate r.expression)
  | _ => rfl

theorem flags_performAll (commands : List Command) :
    (r.performAll commands).modifier.flags = commands.foldl Flags.perform r.modifier.flags := by
  induction commands generalizing r with
  | nil => rfl
  | cons command rest ih => rw [performAll_cons, ih, flags_perform, List.foldl_cons]

end

/-! ## The memory -/

theorem isFinite_typedValue (r : Registers) : r.typedValue.isFinite = true := by
  unfold typedValue
  cases h : r.evaluate r.expression with
  | ok v => exact finite_of_evaluate h
  | error cause =>
    have hzero : (0 : Float).isFinite = true := by decide
    exact hzero

/-- What holds of zero, and is kept when a finite value is added or subtracted, holds of the memory
in every reachable state. -/
theorem memory_induction {P : Float → Prop} (start : P 0)
    (step : ∀ m v, P m → v.isFinite = true → P (m + v) ∧ P (m - v)) {r : Registers}
    (h : Reachable r) : P r.memory := by
  refine reachable_induction (P := fun r => P r.memory) start ?_ h
  intro r command hr
  obtain ⟨hadded, hsubtracted⟩ := step r.memory r.typedValue hr r.isFinite_typedValue
  rcases r.memory_perform_cases command with hkept | hsum | hdifference
  · rw [hkept]
    exact hr
  · rw [hsum]
    exact hadded
  · rw [hdifference]
    exact hsubtracted

theorem isNaN_memory {r : Registers} (h : Reachable r) : r.memory.isNaN = false :=
  memory_induction (P := fun m => m.isNaN = false) (by decide)
    (fun _ _ hm hv => ⟨Double.isNaN_add hm hv, Double.isNaN_sub hm hv⟩) h

theorem memory_ne_negZero {r : Registers} (h : Reachable r) : r.memory ≠ -0 :=
  memory_induction (P := fun m => m ≠ -0) (by decide)
    (fun _ v hm _ => ⟨Double.add_ne_negZero hm v, Double.sub_ne_negZero hm v⟩) h

/-! ## The laws -/

/-- After every run SHIFT and ALPHA are not both set, the answer is finite, the memory is some
number, and so is what the memory keys would make of it. Some run makes the memory infinite. -/
theorem the_registers_stay_in_bounds :
    (∀ commands : List Command,
      let r := performAll {} commands
      let flags := commands.foldl Flags.perform {}
      (flags.shift = true ↔ r.modifier = .shift) ∧ (flags.alpha = true ↔ r.modifier = .alpha) ∧
        ¬ (flags.shift = true ∧ flags.alpha = true) ∧ r.answer.isFinite = true ∧
        r.memory.isNaN = false ∧ r.typedValue.isFinite = true) ∧
      ∃ commands, (performAll {} commands).memory.isInf = true := by
  refine ⟨fun commands => ?_, [.insert "1E308", .addToMemory, .addToMemory], by decide +kernel⟩
  intro r flags
  have hreach : Reachable r := ⟨commands, rfl⟩
  have hflags : flags = r.modifier.flags := (flags_performAll {} commands).symm
  have hpending : (flags.shift = true ↔ r.modifier = .shift) ∧
      (flags.alpha = true ↔ r.modifier = .alpha) ∧
      ¬ (flags.shift = true ∧ flags.alpha = true) := by
    rw [hflags]
    cases r.modifier with
    | none => simp [Modifier.flags]
    | shift => simp [Modifier.flags]
    | alpha => simp [Modifier.flags]
  exact ⟨hpending.1, hpending.2.1, hpending.2.2, isFinite_answer hreach, isNaN_memory hreach,
    r.isFinite_typedValue⟩

/-- Where the typed text has no value, a memory key leaves every register as it is, bit for bit. -/
theorem a_memory_key_without_a_value_changes_nothing {r : Registers} (hreach : Reachable r)
    {cause : EvalError} (hfail : r.evaluate r.expression = .error cause) :
    r.perform .addToMemory = (r, none) ∧ r.perform .subtractFromMemory = (r, none) := by
  have hzero : r.typedValue = 0 := by
    unfold typedValue
    rw [hfail]
  constructor
  · have hadd : r.memory + r.typedValue = r.memory := by
      rw [hzero]
      exact Double.add_zero_of_ne (memory_ne_negZero hreach)
    simp only [perform, hadd]
  · have hsubtract : r.memory - r.typedValue = r.memory := by
      rw [hzero]
      exact Double.sub_zero_eq r.memory
    simp only [perform, hsubtract]

/-- A zero with a minus sign is subtracted and added before a division by zero is typed. -/
theorem a_division_by_zero_leaves_the_memory_alone :
    let commands := [Command.insert "-0", .subtractFromMemory, .addToMemory, .insert "/0"]
    let r := performAll {} commands
    Reachable r ∧ r.evaluate r.expression = .error .notFinite ∧
      r.perform .addToMemory = (r, none) ∧ r.perform .subtractFromMemory = (r, none) := by
  intro commands r
  have hreach : Reachable r := ⟨commands, rfl⟩
  have hfail : r.evaluate r.expression = .error .notFinite := by decide +kernel
  exact ⟨hreach, hfail, a_memory_key_without_a_value_changes_nothing hreach hfail⟩

end Registers

end Calculator
