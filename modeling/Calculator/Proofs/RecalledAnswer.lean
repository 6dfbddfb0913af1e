-- The text of a value stands for the value. A recalled value is typed as text,
-- and the text of a negative value starts with a prefix minus, which binds less
-- strongly than a power. So the text stands for the value as long as what comes
-- next lets go of the minus.
import Calculator.Proofs.DoubleBits
import Calculator.Proofs.NumberText
import Calculator.Proofs.PlainText
import Calculator.Proofs.ShortestText
import Calculator.Proofs.TokenScan
import Calculator.Proofs.WaitingMinus

namespace Calculator

/-! ## What comes after a value -/

/-- The signs that can go on an expression after a value. -/
def continuingSigns : List Char := ['+', '-', '*', '/', '^', '%', '×', '÷', '−']

/-- A text that is empty or goes on an expression with a sign. -/
def Continues (k : String) : Prop := ∀ c ∈ k.toList.head?, c ∈ continuingSigns

instance (k : String) : Decidable (Continues k) :=
  Option.decidableForallMem k.toList.head?

/-! ## The text of a value -/

/-- The text of a finite value is the numeral of its size, with a minus sign when the sign bit is
set. -/
theorem exists_numeral_text {v : Float} (hv : v.isFinite = true) :
    ∃ n : Numeral, n.WellFormed ∧ n.decimal.ordinal = Double.ordinal v ∧
      Double.text v = String.ofList ((if Double.isNegative v then ['-'] else []) ++ n.text) := by
  obtain ⟨hnumber, hbounded, hordinal⟩ := Double.of_isFinite hv
  obtain ⟨n, hn, htext, hreads⟩ := Double.ordinalText_reads_back hordinal
  refine ⟨n, hn, hreads, ?_⟩
  simp only [Double.text, hnumber, hbounded, htext, Bool.false_eq_true, if_false]

theorem plainGlyph_of_continuing {c : Char} (hc : c ∈ continuingSigns) :
    ∃ d, plainGlyph c = [d] ∧ Token.joins d = false := by
  simp only [continuingSigns, List.mem_cons, List.not_mem_nil, or_false] at hc
  rcases hc with rfl | rfl | rfl | rfl | rfl | rfl | rfl | rfl | rfl
  all_goals exact ⟨_, rfl, rfl⟩

theorem Continues.stopsAt {k : String} (hk : Continues k) :
    StopsAt Token.joins (plain k).toList := by
  rw [toList_plain]
  cases hcs : k.toList with
  | nil => exact stopsAt_nil
  | cons c cs =>
    obtain ⟨d, hd, hjoins⟩ := plainGlyph_of_continuing (hk c (by rw [hcs]; rfl))
    rw [List.flatMap_cons, hd]
    exact stopsAt_cons hjoins

/-! ## Three ways to write a value -/

/-- The tokens of a sign and a numeral, as the text of a value has them. -/
def valueTokens (negative : Bool) (n : Numeral) : List Token :=
  (if negative then [.operator '-'] else []) ++ [.number (String.ofList n.text)]

/-- The minus that waits after the text of a value. -/
def minusOf (v : Float) : List Token := if Double.isNegative v then [.negate] else []

theorem isPlain_value (negative : Bool) {n : Numeral} (hn : n.WellFormed) :
    IsPlain ((if negative then ['-'] else []) ++ n.text) := by
  cases negative with
  | false => exact Numeral.isPlain_text hn
  | true => exact isPlain_cons rfl (Numeral.isPlain_text hn)

theorem scan_value (negative : Bool) {n : Numeral} (hn : n.WellFormed) {rest : List Char}
    (hrest : StopsAt Numeral.joins rest) :
    Token.scan ((if negative then ['-'] else []) ++ n.text ++ rest) =
      valueTokens negative n ++ Token.scan rest := by
  have hnumber := Token.scan_number hn hrest
  cases negative with
  | false => exact hnumber
  | true =>
    have hsign : Token.scan ('-' :: (n.text ++ rest)) =
        .operator '-' :: Token.scan (n.text ++ rest) := Token.scan_sign rfl
    rw [hnumber] at hsign
    exact hsign

section

variable {v : Float} {k : String}

theorem tokenize_plain_append {front : List Char} (hfront : IsPlain front) :
    tokenize (plain (String.ofList front ++ k)) = Token.scan (front ++ (plain k).toList) := by
  rw [tokenize, plain_append, String.toList_append, toList_plain, String.toList_ofList,
    hfront.flatMap_eq]

/-- The text of a value: its number goes out, and its minus waits. -/
theorem code_text (hv : v.isFinite = true) (hk : Continues k) :
    ∃ digits, Double.ofText? digits = some (Double.ofOrdinal false (Double.ordinal v)) ∧
      toPostfix (tokenize (plain (Double.text v ++ k))) =
        .number digits :: postfixFrom ⟨minusOf v, true⟩ (tokenize (plain k)) := by
  obtain ⟨n, hn, hordinal, htext⟩ := exists_numeral_text hv
  refine ⟨String.ofList n.text, by rw [Double.ofText?_text hn, hordinal], ?_⟩
  rw [htext, tokenize_plain_append (isPlain_value _ hn),
    scan_value _ hn (Token.stopsAt_numeral hk.stopsAt)]
  unfold minusOf
  cases Double.isNegative v <;> rfl

/-- The text of a value in parentheses: its minus goes out at the closing one. -/
theorem code_group (hv : v.isFinite = true) :
    ∃ digits, Double.ofText? digits = some (Double.ofOrdinal false (Double.ordinal v)) ∧
      toPostfix (tokenize (plain ("(" ++ Double.text v ++ ")" ++ k))) =
        .number digits :: (minusOf v ++ postfixFrom ⟨[], true⟩ (tokenize (plain k))) := by
  obtain ⟨n, hn, hordinal, htext⟩ := exists_numeral_text hv
  refine ⟨String.ofList n.text, by rw [Double.ofText?_text hn, hordinal], ?_⟩
  have hplain : IsPlain ('(' :: ((if Double.isNegative v then ['-'] else []) ++ n.text ++ [')'])) :=
    isPlain_cons rfl ((isPlain_value _ hn).append (by decide))
  have hfront : "(" ++ Double.text v ++ ")" = String.ofList
      ('(' :: ((if Double.isNegative v then ['-'] else []) ++ n.text ++ [')'])) := by
    rw [htext]
    apply String.toList_inj.mp
    simp
  have hclose : Token.scan (')' :: (plain k).toList) = .closeParen :: tokenize (plain k) :=
    Token.scan_sign rfl
  rw [hfront, tokenize_plain_append hplain, List.cons_append, Token.scan_sign rfl,
    List.append_assoc, List.singleton_append, scan_value _ hn (stopsAt_cons rfl), hclose]
  unfold minusOf
  cases Double.isNegative v <;> rfl

theorem code_answer (hk : Continues k) :
    toPostfix (tokenize (plain ("Ans" ++ k))) =
      .valueOf "Ans" :: postfixFrom ⟨[], true⟩ (tokenize (plain k)) := by
  have hname : Token.scan (['A', 'n', 's'] ++ (plain k).toList) =
      .name "Ans" :: tokenize (plain k) :=
    Token.scan_name (by decide) (List.all_eq_true.mp rfl) (Token.stopsAt_isAlpha hk.stopsAt)
      (Token.ne_openParen hk.stopsAt)
  have hplain : IsPlain ['A', 'n', 's'] := by decide
  have htokens := tokenize_plain_append (k := k) hplain
  rw [hname] at htokens
  exact congrArg toPostfix htokens

end

/-! ## What a written value is worth -/

section

variable {v : Float}

theorem run_number (env : Environment) {digits : String}
    (hdigits : Double.ofText? digits = some (Double.ofOrdinal false (Double.ordinal v)))
    (ts : List Token) : env.run [] (.number digits :: ts) =
      env.run [Double.ofOrdinal false (Double.ordinal v)] ts := by
  simp only [Environment.run, Environment.step, hdigits]

theorem run_minusOf (env : Environment) (ts : List Token) :
    env.run [Double.ofOrdinal false (Double.ordinal v)] (minusOf v ++ ts) = env.run [v] ts := by
  unfold minusOf
  cases hnegative : Double.isNegative v with
  | false =>
    have hvalue := Double.ofOrdinal_ordinal v
    rw [hnegative] at hvalue
    simp only [Bool.false_eq_true, if_false, List.nil_append, hvalue]
  | true =>
    calc env.run [Double.ofOrdinal false (Double.ordinal v)] (.negate :: ts)
        = env.run [-Double.ofOrdinal false (Double.ordinal v)] ts := rfl
      _ = env.run [v] ts := by rw [Double.neg_ofOrdinal_ordinal hnegative]

/-- A minus that is let go of at once might as well go out first. -/
theorem run_waiting (env : Environment) {ts : List Token}
    (hminus : Double.isNegative v = false ∨ releasesMinus ts = true) (a : Float) :
    env.run [a] (postfixFrom ⟨minusOf v, true⟩ ts) =
      env.run [a] (minusOf v ++ postfixFrom ⟨[], true⟩ ts) := by
  unfold minusOf
  cases hnegative : Double.isNegative v with
  | false => rfl
  | true =>
    have hrelease : releasesMinus ts = true := by simpa [hnegative] using hminus
    exact run_negate env hrelease a []

theorem shape_waiting (ts : List Token) :
    Shape.scan 1 (postfixFrom ⟨minusOf v, true⟩ ts) = Shape.scan 1 (postfixFrom ⟨[], true⟩ ts) := by
  unfold minusOf
  cases Double.isNegative v with
  | false => rfl
  | true => exact scan_minus ts Nat.one_pos

end

/-! ## The law -/

theorem evaluate_congr {env : Environment} {s t : String} (hs : plain s ≠ "") (ht : plain t ≠ "")
    (h : env.run [] (toPostfix (tokenize (plain s))) =
      env.run [] (toPostfix (tokenize (plain t)))) :
    evaluate env s = evaluate env t := by
  simp only [evaluate, evaluatePostfix]
  rw [if_neg hs, if_neg ht, h]

theorem plain_append_ne {s t : String} (h : plain s ≠ "") : plain (s ++ t) ≠ "" := by
  rw [plain_append]
  intro heq
  exact h (String.append_eq_empty_iff.mp heq).1

theorem plain_value_ne (negative : Bool) {n : Numeral} (hn : n.WellFormed) :
    plain (String.ofList ((if negative then ['-'] else []) ++ n.text)) ≠ "" := by
  obtain ⟨c, cs, hcs, -⟩ := Numeral.exists_text_eq_cons hn
  rw [plain, String.toList_ofList, (isPlain_value _ hn).flatMap_eq, hcs]
  simp

theorem plain_text_ne {v : Float} (hv : v.isFinite = true) : plain (Double.text v) ≠ "" := by
  obtain ⟨n, hn, -, htext⟩ := exists_numeral_text hv
  rw [htext]
  exact plain_value_ne _ hn

/-- Where a value is not negative, or what goes on lets go of a minus, its text does what the name
of the answer does, and what the text in parentheses does. In any case text and name fail for the
same cause, unless a value is not finite. -/
theorem the_text_of_a_value_stands_for_the_value (mode : AngleMode) (v : Float) (k : String)
    (hv : v.isFinite = true) (hk : Continues k) :
    (Double.isNegative v = false ∨ releasesMinus (tokenize (plain k)) = true →
      evaluate ⟨mode, v⟩ (Double.text v ++ k) = evaluate ⟨mode, v⟩ ("Ans" ++ k) ∧
        ∀ answer, evaluate ⟨mode, answer⟩ (Double.text v ++ k) =
          evaluate ⟨mode, answer⟩ ("(" ++ Double.text v ++ ")" ++ k)) ∧
    ∀ cause, cause ≠ .notFinite →
      (evaluate ⟨mode, v⟩ (Double.text v ++ k) = .error cause ↔
        evaluate ⟨mode, v⟩ ("Ans" ++ k) = .error cause) := by
  have htext : plain (Double.text v ++ k) ≠ "" := plain_append_ne (plain_text_ne hv)
  have hname : plain ("Ans" ++ k) ≠ "" := plain_append_ne (by decide)
  have hgroup : plain ("(" ++ Double.text v ++ ")" ++ k) ≠ "" :=
    plain_append_ne (plain_append_ne (plain_append_ne (by decide)))
  obtain ⟨digits, hdigits, hcode⟩ := code_text hv hk
  have hanswer := code_answer hk
  refine ⟨fun hminus => ⟨evaluate_congr htext hname ?_, fun answer =>
    evaluate_congr htext hgroup ?_⟩, fun cause hcause => ?_⟩
  · rw [hcode, hanswer, run_number _ hdigits, run_waiting _ hminus, run_minusOf]
    rfl
  · obtain ⟨digits', hdigits', hcode'⟩ := code_group (k := k) hv
    rw [hcode, hcode', run_number _ hdigits, run_number _ hdigits', run_waiting _ hminus]
  · -- The minus may go anywhere now, but the shape does not see where it goes.
    rw [evaluate_eq_error_iff htext hcause, evaluate_eq_error_iff hname hcause, hcode, hanswer]
    have hfirst : Shape.step 0 (.number digits) = .ok 1 := by
      simp [Shape.step, hdigits]
    simp only [Shape.scan, hfirst]
    rw [shape_waiting]
    rfl

theorem minus_five_stands_for_itself_in_a_product :
    Double.text (-5) = "-5" ∧
      evaluate ⟨.degrees, -5⟩ "-5*2" = evaluate ⟨.degrees, -5⟩ "Ans*2" := by
  have htext : Double.text (-5) = "-5" := by decide +kernel
  have hk : Continues "*2" := by decide
  have hrelease : releasesMinus (tokenize (plain "*2")) = true := by decide +kernel
  have hlaw := (the_text_of_a_value_stands_for_the_value .degrees (-5) "*2"
    (by decide +kernel) hk).1 (Or.inr hrelease)
  refine ⟨htext, ?_⟩
  rw [htext] at hlaw
  exact hlaw.1

/-- A minus that is not let go of at once: it goes to the operand after the percent sign. -/
theorem a_minus_can_go_to_a_later_operand :
    Float.isFinite (-1) = true ∧ Continues "%3+" ∧
      evaluate ⟨.degrees, -1⟩ (Double.text (-1) ++ "%3+") ≠
        evaluate ⟨.degrees, -1⟩ ("Ans" ++ "%3+") :=
  ⟨by decide +kernel, by decide, by decide +kernel⟩

end Calculator
