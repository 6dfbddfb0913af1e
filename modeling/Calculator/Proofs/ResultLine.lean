-- The result line and the last answer are kept in two places, and they never
-- disagree. What the line shows is told by the last command that wrote it, and
-- it stays so until another command writes it.
import Calculator.Proofs.RegisterSteps
import Calculator.Proofs.ResultText

namespace Calculator

namespace Panel

/-- What the panel shows, and what the answer is, after a command that wrote the result line, or
when no command has written it. A calculation that failed leaves the answer of its own moment, and
one that succeeded leaves the answer that is shown. -/
def Agrees (p : Panel) : Option (Registers × Command) → Prop
  | none => p.result = Display.initial
  | some (_, .clear) => p.result = Display.initial
  | some (r, .calculate) =>
    match r.evaluate r.expression with
    | .ok v =>
      p.registers.answer = v ∧ p.result = display p.registers.answer ∧ p.result ≠ Display.error
    | .error _ => p.registers.answer = r.answer ∧ p.result = Display.error
  | some _ => False

/-! ## One command -/

section

variable {p q : Panel} {last : Option (Registers × Command)} {command : Command}

theorem Agrees.congr (h : p.Agrees last) (hresult : q.result = p.result)
    (hanswer : q.registers.answer = p.registers.answer) : q.Agrees last := by
  unfold Agrees at h ⊢
  rw [hresult, hanswer]
  exact h

/-- A command that does not write the result line leaves it, and the answer with it. -/
theorem press_of_not_writesResult (p : Panel) (h : command.writesResult = false) :
    (p.press command).result = p.result ∧
      (p.press command).registers.answer = p.registers.answer := by
  rw [registers_press, p.registers.answer_perform]
  cases command with
  | clear => cases h
  | calculate => cases h
  | _ => exact ⟨rfl, rfl⟩

theorem agrees_calculate (p : Panel) :
    (p.press .calculate).Agrees (some (p.registers, .calculate)) := by
  simp only [Agrees, press, Registers.perform]
  cases h : p.registers.evaluate p.registers.expression with
  | ok v =>
    rw [p.registers.calculate_of_ok h]
    exact ⟨rfl, rfl, display_ne_error (finite_of_evaluate h)⟩
  | error cause =>
    rw [p.registers.calculate_of_error h]
    exact ⟨rfl, rfl⟩

/-- One command keeps the agreement, and begins a new one when it writes the result line. -/
theorem Agrees.press (h : p.Agrees last) (command : Command) :
    (p.press command).Agrees
      (if command.writesResult then some (p.registers, command) else last) := by
  by_cases hwrites : command.writesResult = true
  · rw [if_pos hwrites]
    cases command with
    | clear => rfl
    | calculate => exact p.agrees_calculate
    | _ => cases hwrites
  · rw [if_neg hwrites]
    obtain ⟨hresult, hanswer⟩ := p.press_of_not_writesResult (by simpa using hwrites)
    exact h.congr hresult hanswer

end

/-! ## Runs of commands -/

theorem lastWriting?_cons (r : Registers) (command : Command) (rest : List Command)
    (last : Option (Registers × Command)) :
    (r.lastWriting? (command :: rest)).or last =
      ((r.perform command).1.lastWriting? rest).or
        (if command.writesResult then some (r, command) else last) := by
  unfold Registers.lastWriting?
  rw [Registers.moments, List.filter_cons]
  by_cases hwrites : command.writesResult = true
  · rw [if_pos hwrites, if_pos hwrites, List.getLast?_cons]
    cases (((r.perform command).1.moments rest).filter _).getLast? <;> rfl
  · rw [if_neg hwrites, if_neg hwrites]

theorem Agrees.pressAll {p : Panel} {last : Option (Registers × Command)} (h : p.Agrees last)
    (commands : List Command) :
    (p.pressAll commands).Agrees ((p.registers.lastWriting? commands).or last) := by
  induction commands generalizing p last with
  | nil => exact h
  | cons command rest ih =>
    rw [lastWriting?_cons]
    exact ih (h.press command)

/-! ## The law -/

/-- After any run the result line tells the last command that cleared or calculated: zero, the
answer, or an error and then the answer is that of before. -/
theorem the_result_line_agrees_with_the_answer (commands : List Command) :
    (pressAll {} commands).Agrees (Registers.lastWriting? {} commands) := by
  have hstart : ({} : Panel).Agrees none := rfl
  have hrun := hstart.pressAll commands
  rw [Option.or_none] at hrun
  exact hrun

/-- Before any calculation the line shows zero, after one its answer, and after one that failed an
error. -/
theorem a_run_that_fails_keeps_its_last_answer :
    let good := [Command.insert "6×7", .calculate, .toggleAngle]
    let bad := good ++ [.insert "÷0", .calculate, .toggleAngle]
    (pressAll {} [.insert "6×7", .toggleAngle]).result = "0" ∧
      (pressAll {} good).registers.answer = 42 ∧ (pressAll {} good).result = "42" ∧
      (pressAll {} bad).registers.answer = 42 ∧ (pressAll {} bad).result = "Error" := by
  intro good bad
  have hgood := the_result_line_agrees_with_the_answer good
  have hbad := the_result_line_agrees_with_the_answer bad
  let typed : Registers := Registers.performAll {} [.insert "6×7"]
  let divided : Registers := Registers.performAll {} (good ++ [.insert "÷0"])
  have hgoodLast : Registers.lastWriting? {} good = some (typed, .calculate) := rfl
  have hbadLast : Registers.lastWriting? {} bad = some (divided, .calculate) := rfl
  have hvalue : typed.evaluate typed.expression = .ok 42 := by decide +kernel
  have hcause : divided.evaluate divided.expression = .error .notFinite := by decide +kernel
  have hbefore : divided.answer = 42 := by decide +kernel
  rw [hgoodLast] at hgood
  rw [hbadLast] at hbad
  simp only [Agrees, hvalue] at hgood
  simp only [Agrees, hcause, hbefore] at hbad
  obtain ⟨hanswer, hshown, -⟩ := hgood
  have hdisplay : display 42 = "42" := by decide +kernel
  rw [hanswer, hdisplay] at hshown
  exact ⟨the_result_line_agrees_with_the_answer [.insert "6×7", .toggleAngle], hanswer, hshown,
    hbad.1, hbad.2⟩

end Panel

end Calculator
