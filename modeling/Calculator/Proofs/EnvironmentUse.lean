-- The unit of angle matters only to a text that calls a function of angles, and the
-- last answer only to a text that names it: tokens change their places when they
-- are put in order, but none becomes such a call or such a name.
import Calculator.Proofs.OperandCount
import Calculator.Proofs.RegisterSteps
import Calculator.Proofs.SmallLetters
import Calculator.Proofs.TokenSources

namespace Calculator

/-! ## What a text names -/

/-- The names of the functions of angles, in lower case. -/
def angleFunctions : List String := ["sin", "cos", "tan", "asin", "acos", "atan"]

namespace Token

/-- Does a token call a function of angles, in any letter case? -/
def callsAngleFunction : Token → Bool
  | .function text =>
    angleFunctions.any fun spelling => NamedFunction.folded text = spelling.toList
  | _ => false

/-- Does a token name the last answer, in any letter case? -/
def namesAnswer : Token → Bool
  | .name text => NamedFunction.folded text = ['a', 'n', 's']
  | _ => false

end Token

/-- Does a text call a function of angles? -/
def callsAngleFunction (text : String) : Bool :=
  (tokenize (plain text)).any Token.callsAngleFunction

/-- Does a text name the last answer? -/
def namesAnswer (text : String) : Bool :=
  (tokenize (plain text)).any Token.namesAnswer

/-! ## Two environments -/

section

variable {env env' : Environment}

/-- When every token does the same in two environments, so does the row. -/
theorem run_congr {ts : List Token}
    (h : ∀ t ∈ ts, ∀ operands, env.step operands t = env'.step operands t) (operands : Operands) :
    env.run operands ts = env'.run operands ts := by
  induction ts generalizing operands with
  | nil => rfl
  | cons t ts ih =>
    unfold Environment.run
    rw [h t List.mem_cons_self operands]
    cases env'.step operands t with
    | ok next => exact ih (fun u hu => h u (List.mem_cons_of_mem t hu)) next
    | error cause => rfl

theorem evaluate_eq_of_steps {text : String}
    (h : ∀ t ∈ toPostfix (tokenize (plain text)), ∀ operands,
      env.step operands t = env'.step operands t) :
    evaluate env text = evaluate env' text := by
  simp only [evaluate, evaluatePostfix]
  rw [run_congr h]

end

/-! ## The unit of angle -/

/-- Does a function take an angle, or give one? -/
def NamedFunction.usesAngle : NamedFunction → Bool
  | sine => true
  | cosine => true
  | tangent => true
  | arcSine => true
  | arcCosine => true
  | arcTangent => true
  | _ => false

theorem NamedFunction.apply_of_not_usesAngle {f : NamedFunction} (h : f.usesAngle = false)
    (mode mode' : AngleMode) : f.apply mode = f.apply mode' := by
  cases f with
  | sine => cases h
  | cosine => cases h
  | tangent => cases h
  | arcSine => cases h
  | arcCosine => cases h
  | arcTangent => cases h
  | _ => rfl

/-- Only the names of the functions of angles stand for functions that use an angle. -/
theorem callsAngleFunction_of_ofName? {name : String} {f : NamedFunction}
    (hf : NamedFunction.ofName? name = some f) (h : f.usesAngle = true) :
    (Token.function name).callsAngleFunction = true := by
  have hspellings : ∀ entry ∈ NamedFunction.spellings,
      entry.2.usesAngle = true → entry.1 ∈ angleFunctions := by decide
  unfold NamedFunction.ofName? at hf
  obtain ⟨entry, hfind, rfl⟩ := Option.map_eq_some_iff.mp hf
  have hname := List.find?_some hfind
  have hlisted := hspellings entry (List.mem_of_find?_eq_some hfind) h
  simp only [decide_eq_true_eq] at hname
  simp only [Token.callsAngleFunction, List.any_eq_true, decide_eq_true_eq]
  exact ⟨entry.1, hlisted, hname.symm⟩

theorem step_mode {t : Token} (h : t.callsAngleFunction = false) (mode mode' : AngleMode)
    (answer : Float) (operands : Operands) :
    Environment.step ⟨mode, answer⟩ operands t = Environment.step ⟨mode', answer⟩ operands t := by
  cases t with
  | function name =>
    simp only [Environment.step]
    cases hf : NamedFunction.ofName? name with
    | none => rfl
    | some f =>
      cases hangle : f.usesAngle with
      | true =>
        rw [callsAngleFunction_of_ofName? hf hangle] at h
        cases h
      | false =>
        exact congrArg (Operands.unary · operands)
          (NamedFunction.apply_of_not_usesAngle hangle mode mode')
  | _ => rfl

theorem evaluate_mode {text : String} (h : callsAngleFunction text = false)
    (mode mode' : AngleMode) (answer : Float) :
    evaluate ⟨mode, answer⟩ text = evaluate ⟨mode', answer⟩ text := by
  have hnone : ∀ t ∈ tokenize (plain text), ¬ t.callsAngleFunction = true :=
    List.any_eq_false.mp h
  apply evaluate_eq_of_steps
  intro t ht
  apply step_mode
  rcases mem_toPostfix ht with hmem | hmade
  · simpa using hnone t hmem
  · cases t with
    | valueOf name => rfl
    | negate => rfl
    | _ => exact hmade.elim

/-! ## The last answer -/

theorem value_answer {name : String} (h : name.toList.map Constant.capital ≠ ['A', 'N', 'S'])
    (a b : Float) : Constant.value a name = Constant.value b name := by
  simp [Constant.value, h]

theorem step_answer {t : Token} (hname : ∀ name, t ≠ .name name)
    (h : ∀ name, t = .valueOf name → name.toList.map Constant.capital ≠ ['A', 'N', 'S'])
    (mode : AngleMode) (a b : Float) (operands : Operands) :
    Environment.step ⟨mode, a⟩ operands t = Environment.step ⟨mode, b⟩ operands t := by
  cases t with
  | name name => exact absurd rfl (hname name)
  | valueOf name =>
    simp only [Environment.step]
    rw [value_answer (h name rfl) a b]
  | _ => rfl

/-- Names go out as their values only, and only typed names do. -/
theorem name_of_mem_placed {t x : Token} {b : Bool} (ht : t.Typed) (hx : x ∈ t.placed b) :
    (∀ name, x ≠ .name name) ∧ ∀ name, x = .valueOf name → t = .name name := by
  cases t with
  | valueOf name => exact ht.elim
  | negate => exact ht.elim
  | openParen => cases hx
  | closeParen => cases hx
  | operator sign =>
    simp only [Token.placed] at hx
    split at hx
    · rw [List.mem_singleton.mp hx]
      simp
    · rw [List.mem_singleton.mp hx]
      simp
  | _ =>
    rw [List.mem_singleton.mp hx]
    simp

theorem evaluate_answer {text : String} (h : namesAnswer text = false) (mode : AngleMode)
    (a b : Float) : evaluate ⟨mode, a⟩ text = evaluate ⟨mode, b⟩ text := by
  have hnone : ∀ t ∈ tokenize (plain text), ¬ t.namesAnswer = true := List.any_eq_false.mp h
  apply evaluate_eq_of_steps
  intro x hx
  obtain ⟨t, ht, place, hplaced⟩ := exists_of_mem_toPostfix hx
  obtain ⟨hname, hvalue⟩ := name_of_mem_placed (Token.typed_scan _ t ht) hplaced
  apply step_answer hname
  intro name heq hcapitals
  cases hvalue name heq
  have hletters : ∀ c ∈ name.toList, c.isAlpha = true := isAlpha_of_mem_tokenize ht
  have hsmall : NamedFunction.folded name = ['a', 'n', 's'] :=
    (Constant.map_capital_eq_iff hletters ['a', 'n', 's']).mp hcapitals
  exact hnone _ ht (decide_eq_true hsmall)

/-! ## Work out and work out again -/

namespace Registers

section

variable {r : Registers}

theorem evaluate_calculate (h : namesAnswer r.expression = false) :
    (r.calculate r.expression).1.evaluate r.expression = r.evaluate r.expression := by
  have hmode := (r.calculate_keeps r.expression).2.2
  unfold evaluate environment
  rw [hmode]
  exact evaluate_answer h _ _ _

theorem typedValue_calculate (h : namesAnswer r.expression = false) :
    (r.calculate r.expression).1.typedValue = r.typedValue := by
  unfold typedValue
  rw [(r.calculate_keeps r.expression).1, evaluate_calculate h]

theorem perform_calculate_twice (h : namesAnswer r.expression = false) :
    (r.perform .calculate).1.perform .calculate = r.perform .calculate := by
  have hagain := evaluate_calculate h
  simp only [perform]
  rw [(r.calculate_keeps r.expression).1]
  cases hvalue : r.evaluate r.expression with
  | ok v =>
    rw [hvalue] at hagain
    rw [calculate_of_ok _ hagain, r.calculate_of_ok hvalue]
  | error cause =>
    rw [hvalue] at hagain
    rw [calculate_of_error _ hagain, r.calculate_of_error hvalue]

/-- A calculation does not look at the memory, and does not touch it. -/
theorem calculate_memory (memory : Float) (text : String) :
    { r with memory := memory }.calculate text =
      ({ (r.calculate text).1 with memory := memory }, (r.calculate text).2) := by
  have hsame : { r with memory := memory }.evaluate text = r.evaluate text := rfl
  cases hvalue : r.evaluate text with
  | ok v => rw [calculate_of_ok _ (hsame.trans hvalue), r.calculate_of_ok hvalue]
  | error cause => rw [calculate_of_error _ (hsame.trans hvalue), r.calculate_of_error hvalue]

theorem perform_calculate_comm (h : namesAnswer r.expression = false) {command : Command}
    (hcommand : command ∈ [Command.addToMemory, .subtractFromMemory]) :
    (r.perform command).1.perform .calculate =
      (((r.perform .calculate).1.perform command).1, (r.perform .calculate).2) := by
  simp only [List.mem_cons, List.not_mem_nil, or_false] at hcommand
  rcases hcommand with rfl | rfl
  all_goals
    simp only [perform]
    rw [calculate_memory, typedValue_calculate h, (r.calculate_keeps r.expression).2.1]

end

end Registers

/-! ## The law -/

/-- The unit matters only to a text that calls a function of angles, and the answer only to one that
names it. Such a text apart, to calculate twice is to calculate once, and a memory key may come
before or after it. -/
theorem what_is_not_named_does_not_matter :
    (∀ text, callsAngleFunction text = false → ∀ answer,
      evaluate ⟨.degrees, answer⟩ text = evaluate ⟨.radians, answer⟩ text) ∧
    (∀ text, namesAnswer text = false → ∀ mode a b,
      evaluate ⟨mode, a⟩ text = evaluate ⟨mode, b⟩ text) ∧
    ∀ r : Registers, namesAnswer r.expression = false →
      (r.perform .calculate).1.perform .calculate = r.perform .calculate ∧
        ∀ command ∈ [Command.addToMemory, .subtractFromMemory],
          (r.perform command).1.perform .calculate =
            (((r.perform .calculate).1.perform command).1, (r.perform .calculate).2) := by
  refine ⟨fun text h answer => evaluate_mode h _ _ answer,
    fun text h mode a b => evaluate_answer h mode a b, fun r h => ?_⟩
  exact ⟨Registers.perform_calculate_twice h,
    fun command hcommand => Registers.perform_calculate_comm h hcommand⟩

/-- A logarithm needs no unit, and a name that only begins like the answer is another name. -/
theorem a_logarithm_needs_no_unit_and_no_answer :
    let r : Registers := { expression := "7−2", memory := 1 }
    evaluate ⟨.degrees, 3⟩ "ln(Answer+2)" = evaluate ⟨.radians, 3⟩ "ln(Answer+2)" ∧
      evaluate ⟨.radians, 3⟩ "ln(Answer+2)" = evaluate ⟨.radians, 5⟩ "ln(Answer+2)" ∧
      (r.perform .calculate).1.perform .calculate = r.perform .calculate ∧
      (r.perform .addToMemory).1.perform .calculate =
        (((r.perform .calculate).1.perform .addToMemory).1, (r.perform .calculate).2) := by
  intro r
  obtain ⟨hmode, hanswer, hstate⟩ := what_is_not_named_does_not_matter
  obtain ⟨htwice, hcomm⟩ := hstate r (by decide +kernel)
  exact ⟨hmode "ln(Answer+2)" (by decide +kernel) 3,
    hanswer "ln(Answer+2)" (by decide +kernel) .radians 3 5, htwice,
    hcomm .addToMemory (by decide)⟩

end Calculator
