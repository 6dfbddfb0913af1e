-- Nothing unknown is accepted. A text with an unknown sign or an unknown
-- function in it is refused, wherever it stands, because every typed operator
-- and function is still there when the text is worked out. And an error names
-- something that stands in the text.
import Calculator.Proofs.RecalledAnswer
import Calculator.Proofs.TokenSources
import Calculator.Proofs.TypedRows

namespace Calculator

theorem ofSign?_eq_none_iff {sign : Char} :
    Operator.ofSign? sign = none ↔ sign ∉ ['+', '-', '*', '/', '^', ','] := by
  unfold Operator.ofSign?
  constructor
  · intro h
    split_ifs at h with h1 h2 h3 h4 h5 h6
    simp [h1, h2, h3, h4, h5, h6]
  · intro h
    simp only [List.mem_cons, List.not_mem_nil, or_false, not_or] at h
    simp [h]

/-! ## Values and errors of texts -/

section

variable {env : Environment} {text : String}

theorem known_of_evaluate {v : Float} (h : evaluate env text = .ok v) {t : Token}
    (ht : t ∈ tokenize (plain text)) : t.Known := by
  rcases evaluate_ok_cases h with ⟨hempty, -⟩ | ⟨hvalue, -⟩
  · have hnone : tokenize "" = [] := by decide +kernel
    rw [hempty, hnone] at ht
    cases ht
  · exact known_of_ok hvalue ht

/-- An error of a text comes from a token of the text, or an operand is missing or left over, or
the value is not finite. -/
theorem cause_of_evaluate {cause : EvalError} (h : evaluate env text = .error cause) :
    cause = .malformed ∨ cause = .notFinite ∨ ∃ t ∈ tokenize (plain text), t.Causes cause := by
  by_cases hfinite : cause = .notFinite
  · exact Or.inr (Or.inl hfinite)
  · have hempty : plain text ≠ "" := by
      intro hempty
      unfold evaluate at h
      rw [if_pos hempty] at h
      cases h
    rcases Shape.cause_scan ((evaluate_eq_error_iff hempty hfinite).mp h) with
      hmalformed | ⟨t, ht, hcause⟩
    · exact Or.inl hmalformed
    · rcases mem_toPostfix ht with hmem | hmade
      · exact Or.inr (Or.inr ⟨t, hmem, hcause⟩)
      · exact absurd hcause (Token.known_of_isMade hmade).not_causes

theorem sign_of_evaluate {sign : Char} (h : evaluate env text = .error (.unknownOperator sign)) :
    .operator sign ∈ tokenize (plain text) ∧ Operator.ofSign? sign = none := by
  rcases cause_of_evaluate h with hother | hother | ⟨t, ht, hcause⟩
  · cases hother
  · cases hother
  · cases hcause with
    | operator hop => exact ⟨ht, hop⟩

theorem function_of_evaluate {name : String}
    (h : evaluate env text = .error (.unknownFunction name)) :
    .function name ∈ tokenize (plain text) ∧ NamedFunction.ofName? name = none := by
  rcases cause_of_evaluate h with hother | hother | ⟨t, ht, hcause⟩
  · cases hother
  · cases hother
  · cases hcause with
    | function hf => exact ⟨ht, hf⟩

theorem evaluate_ne_invalidNumber (literal : String) :
    evaluate env text ≠ .error (.invalidNumber literal) := by
  intro h
  rcases cause_of_evaluate h with hother | hother | ⟨t, ht, hcause⟩
  · cases hother
  · cases hother
  · cases hcause with
    | number hnumber =>
      have hknown := known_number (Token.typed_scan _ _ ht)
      exact absurd (.number hnumber) hknown.not_causes

end

/-! ## The law -/

/-- A text with an unknown sign or function is refused. An error names an unknown sign or function
that stands in the text, and no text is refused for one of its numbers. -/
theorem nothing_unknown_is_accepted (env : Environment) (text : String) :
    ((∃ sign, .operator sign ∈ tokenize (plain text) ∧ sign ∉ ['+', '-', '*', '/', '^', ',']) ∨
        (∃ name, .function name ∈ tokenize (plain text) ∧ NamedFunction.ofName? name = none) →
      ∃ cause, evaluate env text = .error cause) ∧
    (∀ sign, evaluate env text = .error (.unknownOperator sign) →
      sign ∈ (plain text).toList ∧ isBlank sign = false ∧ sign.isAlpha = false ∧
        sign.isDigit = false ∧ sign ∉ ['+', '-', '*', '/', '^', ',', '(', ')', '%', '√']) ∧
    (∀ name, evaluate env text = .error (.unknownFunction name) →
      name.toList ≠ [] ∧ (∀ c ∈ name.toList, c.isAlpha = true) ∧
        name.toList ++ ['('] <:+: (plain text).toList ∧ NamedFunction.ofName? name = none) ∧
    ∀ literal, evaluate env text ≠ .error (.invalidNumber literal) := by
  refine ⟨fun hunknown => ?_, fun sign h => ?_, fun name h => ?_, evaluate_ne_invalidNumber⟩
  · cases hvalue : evaluate env text with
    | error cause => exact ⟨cause, rfl⟩
    | ok v =>
      exfalso
      rcases hunknown with ⟨sign, hmem, hsign⟩ | ⟨name, hmem, hname⟩
      · have hcause := Token.Causes.operator (ofSign?_eq_none_iff.mpr hsign)
        exact (known_of_evaluate hvalue hmem).not_causes hcause
      · exact (known_of_evaluate hvalue hmem).not_causes (.function hname)
  · obtain ⟨hmem, hop⟩ := sign_of_evaluate h
    obtain ⟨htext, halpha, hdigit, hother⟩ := sign_of_mem_tokenize hmem
    have hsigns := ofSign?_eq_none_iff.mp hop
    refine ⟨htext, not_isBlank_of_mem_plain htext, halpha, hdigit, ?_⟩
    intro hlisted
    rcases List.mem_append.mp
      (show sign ∈ ['+', '-', '*', '/', '^', ','] ++ ['(', ')', '%', '√'] from hlisted) with hl | hl
    · exact hsigns hl
    · exact hother hl
  · obtain ⟨hmem, hf⟩ := function_of_evaluate h
    rcases function_of_mem_tokenize hmem with rfl | ⟨hne, halpha, hinfix⟩
    · have hroot : NamedFunction.ofName? "sqrt" = some .squareRoot := by decide +kernel
      rw [hroot] at hf
      cases hf
    · exact ⟨hne, halpha, hinfix, hf⟩

/-- An unknown function is refused, and so is an unknown sign, and both are named. -/
theorem an_unknown_function_is_refused_by_name :
    (∃ cause, evaluate {} "1+foo(2" = .error cause) ∧
      "foo".toList ++ ['('] <:+: (plain "1+foo(2").toList ∧
      '&' ∈ (plain "2 × & 3").toList ∧ isBlank '&' = false := by
  obtain ⟨hrefused, -, hfunction, -⟩ := nothing_unknown_is_accepted {} "1+foo(2"
  obtain ⟨-, hsign, -, -⟩ := nothing_unknown_is_accepted {} "2 × & 3"
  have hname := hfunction "foo" (by decide +kernel)
  have hand := hsign '&' (by decide +kernel)
  exact ⟨hrefused (Or.inr ⟨"foo", by decide +kernel, by decide +kernel⟩), hname.2.2.1, hand.1,
    hand.2.1⟩

end Calculator
