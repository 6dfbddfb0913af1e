-- What a recalled register is worth when it is worked out on its own. The last
-- answer always comes back from its text. The memory comes back when it is
-- finite. A memory that has grown past the largest double types a word, which is
-- read as a name, and comes back as zero.
import Calculator.Proofs.NearestValue
import Calculator.Proofs.NumeralSpelling
import Calculator.Proofs.RecalledAnswer
import Calculator.Proofs.RegisterSteps
import Calculator.Proofs.ResultText

namespace Calculator

/-! ## The value of the text of a double -/

theorem evaluate_of_run {env : Environment} {text : String} {v : Float} (hne : plain text ≠ "")
    (hrun : env.run [] (toPostfix (tokenize (plain text))) = .ok [v]) (hv : v.isFinite = true) :
    evaluate env text = .ok v := by
  simp only [evaluate, evaluatePostfix]
  rw [if_neg hne, hrun]
  exact if_pos hv

/-- A numeral, with a minus sign or without, has the value of the double that it is
read as. -/
theorem evaluate_signed (env : Environment) (negative : Bool) {n : Numeral} (hn : n.WellFormed) :
    evaluate env (signed negative n) = finite (Double.ofOrdinal negative n.decimal.ordinal) := by
  have hcode : toPostfix (tokenize (plain (signed negative n))) =
      .number (String.ofList n.text) :: (if negative then [.negate] else []) := by
    have htokens := tokenize_plain_append (k := "") (isPlain_value negative hn)
    rw [String.append_empty] at htokens
    have hrest : (plain "").toList = [] := by simp [plain]
    have hend : Token.scan [] = [] := by rw [Token.scan]
    rw [signed, htokens, hrest, scan_value negative hn stopsAt_nil, hend]
    cases negative <;> rfl
  have hne : plain (signed negative n) ≠ "" := plain_value_ne negative hn
  have hread := Double.ofText?_text hn
  have hsize : n.decimal.ordinal < 2 ^ 63 :=
    Nat.lt_of_le_of_lt n.decimal.ordinal_le (by decide)
  simp only [evaluate, evaluatePostfix]
  rw [if_neg hne, hcode]
  cases negative with
  | false => simp [Environment.run, Environment.step, hread, Operands.single]
  | true =>
    simp [Environment.run, Environment.step, hread, Operands.single, Operands.unary,
      Double.neg_ofOrdinal hsize]

theorem evaluate_text (env : Environment) {v : Float} (hv : v.isFinite = true) :
    evaluate env (Double.text v) = .ok v := by
  obtain ⟨n, hn, hordinal, htext⟩ := exists_numeral_text hv
  have hvalue := evaluate_signed env (Double.isNegative v) hn
  rw [hordinal, Double.ofOrdinal_ordinal, finite, if_pos hv] at hvalue
  rw [htext]
  exact hvalue

/-- The text of a double that is not finite is a word. -/
theorem text_of_not_isFinite {v : Float} (hv : v.isFinite = false) :
    Double.text v = "NaN" ∨ Double.text v = "inf" ∨ Double.text v = "-inf" := by
  unfold Double.text
  cases hnumber : v.isNaN with
  | true => exact Or.inl rfl
  | false =>
    have hinf := Double.isInf_of_not_isFinite hv hnumber
    cases hnegative : Double.isNegative v with
    | false => exact Or.inr (Or.inl (by simp [hinf]))
    | true => exact Or.inr (Or.inr (by simp [hinf]))

/-- The text of a double that is not finite has the value of an unknown name, or that value with a
minus. -/
theorem evaluate_text_of_not_isFinite (env : Environment) {v : Float} (hv : v.isFinite = false) :
    evaluate env (Double.text v) = .ok 0 ∨ evaluate env (Double.text v) = .ok (-0) := by
  rcases text_of_not_isFinite hv with htext | htext | htext
  · rw [htext]
    have hcode : toPostfix (tokenize (plain "NaN")) = [.valueOf "NaN"] := by decide +kernel
    exact Or.inl (evaluate_of_run (by decide +kernel) (by rw [hcode]; rfl) (by decide))
  · rw [htext]
    have hcode : toPostfix (tokenize (plain "inf")) = [.valueOf "inf"] := by decide +kernel
    exact Or.inl (evaluate_of_run (by decide +kernel) (by rw [hcode]; rfl) (by decide))
  · rw [htext]
    have hcode : toPostfix (tokenize (plain "-inf")) = [.valueOf "inf", .negate] := by
      decide +kernel
    exact Or.inr (evaluate_of_run (by decide +kernel) (by rw [hcode]; rfl) (by decide))

namespace Registers

variable (r : Registers)

/-! ## Recall and work out -/

theorem performAll_recallAnswer : r.performAll [.clear, .recallAnswer] =
    { r with expression := Double.text r.answer } := by
  simp [perform, type]

theorem performAll_recallMemory : r.performAll [.clear, .recallMemory] =
    { r with expression := Double.text r.memory } := by
  simp [perform, type]

theorem perform_calculate_of_ok {text : String} {v : Float}
    (h : Calculator.evaluate r.environment text = .ok v) :
    perform { r with expression := text } .calculate =
      ({ r with expression := text, answer := v }, some (display v)) := by
  have hvalue : evaluate { r with expression := text } text = .ok v := h
  simp only [perform, calculate_of_ok _ hvalue]

theorem display_zero {v : Float} (hv : v = 0 ∨ v = -0) : display v = "0" := by
  rcases hv with rfl | rfl
  · exact display_of_ordinal_zero (by decide) (by decide)
  · exact display_of_ordinal_zero (by decide) (by decide)

/-! ## The laws -/

/-- The text of a finite double has the value of the double. So an answer that is recalled and
worked out again stays as it was, bit for bit, and is shown as a number. -/
theorem the_answer_comes_back_from_its_text :
    (∀ r : Registers, Reachable r →
      (r.performAll [.clear, .recallAnswer]).perform .calculate =
          ({ r with expression := Double.text r.answer }, some (display r.answer)) ∧
        display r.answer ≠ Display.error) ∧
      ∀ (mode : AngleMode) (answer v : Float), v.isFinite = true →
        Calculator.evaluate ⟨mode, answer⟩ (Double.text v) = .ok v := by
  refine ⟨fun r hr => ⟨?_, display_ne_error (isFinite_answer hr)⟩,
    fun mode answer v hv => evaluate_text ⟨mode, answer⟩ hv⟩
  rw [performAll_recallAnswer]
  exact r.perform_calculate_of_ok (evaluate_text _ (isFinite_answer hr))

/-- A negative zero is an answer with a sign of its own, and it comes back with its sign. -/
theorem a_negative_zero_comes_back :
    Double.isNegative (performAll {} [.insert "-0", .calculate]).answer = true ∧
      (performAll {} [.insert "-0", .calculate, .clear, .recallAnswer, .calculate]).answer =
        (performAll {} [.insert "-0", .calculate]).answer ∧
      Calculator.evaluate ⟨.radians, 1⟩ (Double.text (-0)) = .ok (-0) := by
  have hlaw := (the_answer_comes_back_from_its_text.1 _ ⟨[.insert "-0", .calculate], rfl⟩).1
  exact ⟨by decide +kernel, congrArg (fun shown => shown.1.answer) hlaw,
    the_answer_comes_back_from_its_text.2 .radians 1 (-0) (by decide)⟩

/-- A memory that is recalled and worked out becomes the answer exactly when it is finite. Otherwise
the answer becomes zero, and no error is shown. -/
theorem the_memory_comes_back_exactly_when_finite (r : Registers) :
    (((r.performAll [.clear, .recallMemory]).perform .calculate).1.answer = r.memory ↔
        r.memory.isFinite = true) ∧
      (r.memory.isFinite = true →
        (r.performAll [.clear, .recallMemory]).perform .calculate =
            ({ r with expression := Double.text r.memory, answer := r.memory },
              some (display r.memory)) ∧
          display r.memory ≠ Display.error) ∧
      (r.memory.isFinite = false →
        ∃ zero, (zero = 0 ∨ zero = -0) ∧
          (r.performAll [.clear, .recallMemory]).perform .calculate =
            ({ r with expression := Double.text r.memory, answer := zero }, some "0")) := by
  rw [performAll_recallMemory]
  cases hfinite : r.memory.isFinite with
  | true =>
    have hvalue := evaluate_text r.environment hfinite
    rw [r.perform_calculate_of_ok hvalue]
    exact ⟨by simp, fun _ => ⟨rfl, display_ne_error hfinite⟩, nofun⟩
  | false =>
    obtain ⟨zero, hzero, hvalue⟩ : ∃ zero, (zero = 0 ∨ zero = -0) ∧
        Calculator.evaluate r.environment (Double.text r.memory) = .ok zero := by
      rcases evaluate_text_of_not_isFinite r.environment hfinite with hvalue | hvalue
      · exact ⟨0, Or.inl rfl, hvalue⟩
      · exact ⟨-0, Or.inr rfl, hvalue⟩
    rw [r.perform_calculate_of_ok hvalue, display_zero hzero]
    refine ⟨⟨fun heq => ?_, nofun⟩, nofun, fun _ => ⟨zero, hzero, rfl⟩⟩
    -- The value of a text is finite, and the memory is not.
    have hmemory : zero = r.memory := heq
    rw [← hmemory, finite_of_evaluate hvalue] at hfinite
    cases hfinite

/-- A memory of minus five comes back, and an infinite one comes back as zero. -/
theorem a_memory_of_minus_five_comes_back :
    (((performAll {} [.insert "5", .subtractFromMemory]).performAll
        [.clear, .recallMemory]).perform .calculate).1.answer = -5 ∧
      ∃ zero, (zero = 0 ∨ zero = -0) ∧
        ((({ memory := Double.ofOrdinal false Double.infinityOrdinal } : Registers).performAll
          [.clear, .recallMemory]).perform .calculate).1.answer = zero := by
  have hmemory : (performAll {} [.insert "5", .subtractFromMemory]).memory = -5 := by
    decide +kernel
  have hfinite : (performAll {} [.insert "5", .subtractFromMemory]).memory.isFinite = true := by
    rw [hmemory]
    decide
  have hlaw := (the_memory_comes_back_exactly_when_finite
    (performAll {} [.insert "5", .subtractFromMemory])).1.mpr hfinite
  obtain ⟨zero, hzero, hrecall⟩ := (the_memory_comes_back_exactly_when_finite
    { memory := Double.ofOrdinal false Double.infinityOrdinal }).2.2 (by decide +kernel)
  exact ⟨hlaw.trans hmemory, zero, hzero, congrArg (fun shown => shown.1.answer) hrecall⟩

/-- Two large values add up past the largest double, and what is recalled is zero. -/
theorem a_memory_past_the_largest_double_comes_back_as_zero :
    (performAll {} [.insert "1E308", .addToMemory, .addToMemory]).memory.isFinite = false ∧
      (performAll {} [.insert "1E308", .addToMemory, .addToMemory, .clear, .recallMemory,
        .calculate]).answer = 0 ∧
      (performAll {} [.insert "1E308", .addToMemory, .addToMemory]).memory ≠ 0 :=
  ⟨by decide +kernel, by decide +kernel, by decide +kernel⟩

end Registers

end Calculator
