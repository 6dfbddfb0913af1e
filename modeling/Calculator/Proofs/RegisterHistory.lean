-- The registers tell their history. After any run of commands, the answer is
-- the last one that a calculation gave, the memory is a sum over the run, and
-- the unit of angle tells whether it was changed an odd number of times.
import Mathlib.Algebra.Ring.Parity
import Calculator.Proofs.RegisterSteps

namespace Calculator

namespace Registers

/-! ## Runs of commands -/

section

variable (r : Registers) (commands : List Command)

/-- The last answer that a run gives, or the one before the run when it gives none. -/
theorem answer_performAll : (r.performAll commands).answer =
    ((r.moments commands).filterMap answered?).getLast?.getD r.answer := by
  induction commands generalizing r with
  | nil => rfl
  | cons command rest ih =>
    rw [performAll_cons, ih, answer_perform, moments, List.filterMap_cons]
    cases answered? (r, command) with
    | none => rfl
    | some v =>
      simp only [Option.getD_some, List.getLast?_cons]

theorem memory_performAll :
    (r.performAll commands).memory = (r.moments commands).foldl accumulate r.memory := by
  induction commands generalizing r with
  | nil => rfl
  | cons command rest ih => rw [performAll_cons, ih, memory_perform, moments, List.foldl_cons]

theorem mode_performAll : (r.performAll commands).mode =
    if Even (commands.count .toggleAngle) then r.mode else r.mode.toggle := by
  induction commands generalizing r with
  | nil => simp
  | cons command rest ih =>
    rw [performAll_cons, ih, mode_perform]
    by_cases htoggle : command = .toggleAngle
    · rw [htoggle, List.count_cons_self]
      by_cases heven : Even (rest.count .toggleAngle)
      · simp [heven, Nat.even_add_one]
      · simp [heven, Nat.even_add_one]
    · rw [List.count_cons_of_ne htoggle, if_neg htoggle]

end

/-- The commands that work with the typed text, or beside it, and do not change it. -/
def keepText : List Command :=
  [.calculate, .addToMemory, .subtractFromMemory, .toggleAngle, .shift, .alpha, .mode]

theorem expression_perform (r : Registers) {command : Command} (h : command ∈ keepText) :
    (r.perform command).1.expression = r.expression := by
  simp only [keepText, List.mem_cons, List.not_mem_nil, or_false] at h
  rcases h with rfl | rfl | rfl | rfl | rfl | rfl | rfl
  · exact (r.calculate_keeps r.expression).1
  all_goals rfl

/-! ## The law -/

/-- The answer is that of the last calculation that had one, the memory is what the memory keys made
of zero, and the mode tells how often the unit was changed. Only keys that type or take back change
the typed text. -/
theorem the_registers_tell_their_history (commands : List Command) :
    (performAll {} commands).answer =
        ((moments {} commands).filterMap answered?).getLast?.getD 0 ∧
      (performAll {} commands).memory = (moments {} commands).foldl accumulate 0 ∧
      ((performAll {} commands).mode = .radians ↔ Odd (commands.count .toggleAngle)) ∧
      (∀ command ∈ keepText, ∀ r : Registers,
        (r.perform command).1.expression = r.expression) ∧
      ∀ command ∈ [Command.clear, .delete], ∀ r : Registers,
        (r.perform command).1.answer = r.answer ∧ (r.perform command).1.memory = r.memory := by
  refine ⟨answer_performAll {} commands, memory_performAll {} commands, ?_,
    fun command hcommand r => r.expression_perform hcommand, fun command hcommand r => ?_⟩
  · rw [mode_performAll, ← Nat.not_even_iff_odd]
    split
    · rename_i heven
      simp [heven]
    · rename_i hodd
      simp [hodd, AngleMode.toggle]
  · simp only [List.mem_cons, List.not_mem_nil, or_false] at hcommand
    rcases hcommand with rfl | rfl
    · exact ⟨rfl, rfl⟩
    · exact ⟨rfl, rfl⟩

/-- Two is worked out in degrees, and the memory takes its double in radians. -/
theorem a_short_run_tells_its_history :
    let r := performAll {} [.insert "2", .calculate, .toggleAngle, .insert "+Ans", .addToMemory]
    r.answer = 2 ∧ r.memory = 4 ∧ r.mode = .radians ∧
      (r.perform .shift).1.expression = r.expression ∧
      (r.perform .clear).1.answer = r.answer ∧ (r.perform .clear).1.memory = r.memory := by
  intro r
  obtain ⟨hanswer, hmemory, hmode, htext, hclear⟩ := the_registers_tell_their_history
    [.insert "2", .calculate, .toggleAngle, .insert "+Ans", .addToMemory]
  exact ⟨hanswer.trans (by decide +kernel), hmemory.trans (by decide +kernel),
    hmode.mpr (by decide), htext .shift (by decide) r, hclear .clear (by decide) r⟩

end Registers

end Calculator
