-- The laws of the lexer: one for each kind of token that may come first, one
-- for two texts in a row that do not join, and what every row of typed tokens
-- looks like.
import Calculator.Proofs.NumeralScan
import Calculator.Token.Lexer

namespace Calculator

namespace Token

/-! ## The first token -/

/-- A character that can go on a numeral or a name, or make a name a function. -/
def joins (c : Char) : Bool := Numeral.joins c || c = '('

section

variable {rest : List Char}

theorem stopsAt_numeral (h : StopsAt joins rest) : StopsAt Numeral.joins rest :=
  h.mono (fun c hc => by simp [joins, hc])

theorem stopsAt_isAlpha (h : StopsAt joins rest) : StopsAt Char.isAlpha rest :=
  h.mono (fun c hc => by simp [joins, Numeral.joins, hc])

theorem ne_openParen (h : StopsAt joins rest) : rest.head? ≠ some '(' := by
  intro hparen
  exact absurd (h '(' hparen) (by decide)

theorem not_isDigit_of_isAlpha {c : Char} (h : c.isAlpha = true) : c.isDigit = false := by
  simp only [Char.isAlpha, Char.isUpper, Char.isLower, Char.isDigit, Bool.or_eq_true,
    Bool.and_eq_true, decide_eq_true_eq, Bool.and_eq_false_iff, decide_eq_false_iff_not,
    UInt32.le_iff_toNat_le, ge_iff_le] at h ⊢
  grind

theorem numeral_of_isAlpha {c : Char} {cs : List Char} (h : c.isAlpha = true) :
    Numeral.scan (c :: cs) = none := by
  apply Numeral.scan_eq_none (not_isDigit_of_isAlpha h)
  rintro rfl
  exact absurd h (by decide)

theorem scan_of_numeral {cs : List Char} {n : Numeral} (h : Numeral.scan cs = some (n, rest)) :
    scan cs = number (String.ofList n.text) :: scan rest := by
  cases cs with
  | nil => cases h
  | cons c cs =>
    rw [scan]
    split
    · rename_i h'
      rw [h] at h'
      cases h'
      rfl
    · rename_i h'
      rw [h] at h'
      cases h'

theorem scan_number {n : Numeral} (hn : n.WellFormed) (h : StopsAt Numeral.joins rest) :
    scan (n.text ++ rest) = number (String.ofList n.text) :: scan rest :=
  scan_of_numeral (Numeral.scan_append hn h)

theorem scan_of_sign {c : Char} (hnumeral : Numeral.scan (c :: rest) = none)
    (halpha : c.isAlpha = false) : scan (c :: rest) = ofSign c :: scan rest := by
  rw [scan]
  split
  · rename_i hscan
    rw [hnumeral] at hscan
    cases hscan
  · rw [if_neg (by simp [halpha])]

/-- A sign that can be no part of a numeral or a name is one token. -/
theorem scan_sign {c : Char} (h : Numeral.joins c = false) :
    scan (c :: rest) = ofSign c :: scan rest := by
  simp only [Numeral.joins, Bool.or_eq_false_iff, decide_eq_false_iff_not] at h
  exact scan_of_sign (Numeral.scan_eq_none h.1.1 h.1.2) h.2

section

variable {letters : List Char}

/-- A row of letters is one token: a function, when a parenthesis stands right after it, and
otherwise a name. -/
theorem scan_letters (hne : letters ≠ []) (halpha : ∀ c ∈ letters, c.isAlpha = true)
    (hstop : StopsAt Char.isAlpha rest) :
    scan (letters ++ rest) =
      (if rest.head? = some '(' then function (String.ofList letters)
        else name (String.ofList letters)) :: scan rest := by
  obtain ⟨c, cs, rfl⟩ := List.exists_cons_of_ne_nil hne
  have hc : c.isAlpha = true := halpha c List.mem_cons_self
  have hcs : ∀ x ∈ cs, x.isAlpha = true := fun x hx => halpha x (List.mem_cons_of_mem c hx)
  have htake := hstop.takeWhile_row hcs
  have hdrop := hstop.dropWhile_row hcs
  rw [List.cons_append, scan]
  split
  · rename_i hscan
    rw [numeral_of_isAlpha hc] at hscan
    cases hscan
  · simp only [hc, if_true, htake]
    split
    · rename_i after hafter
      rw [hdrop] at hafter
      subst hafter
      rw [if_pos List.head?_cons, scan_sign rfl]
      rfl
    · rename_i hafter
      rw [hdrop] at hafter ⊢
      have hhead : rest.head? ≠ some '(' := by
        intro h
        obtain ⟨after, rfl⟩ := List.head?_eq_some_iff.mp h
        exact hafter after rfl
      rw [if_neg hhead]

theorem scan_function (hne : letters ≠ []) (halpha : ∀ c ∈ letters, c.isAlpha = true) :
    scan (letters ++ '(' :: rest) =
      function (String.ofList letters) :: openParen :: scan rest := by
  rw [scan_letters hne halpha (stopsAt_cons rfl), if_pos List.head?_cons, scan_sign rfl]
  rfl

theorem scan_name (hne : letters ≠ []) (halpha : ∀ c ∈ letters, c.isAlpha = true)
    (hstop : StopsAt Char.isAlpha rest) (hparen : rest.head? ≠ some '(') :
    scan (letters ++ rest) = name (String.ofList letters) :: scan rest := by
  rw [scan_letters hne halpha hstop, if_neg hparen]

end

end

theorem isAlpha_of_mem_takeWhile {c : Char} {cs : List Char} (h : c.isAlpha = true) :
    ∀ x ∈ c :: cs.takeWhile Char.isAlpha, x.isAlpha = true := by
  rintro x (_ | ⟨_, hx⟩)
  · exact h
  · exact List.mem_takeWhile_imp hx

/-! ## Two texts in a row -/

/-- A text that makes no name in front of it longer, and no function of it. -/
def EndsWord (rest : List Char) : Prop :=
  StopsAt Char.isAlpha rest ∧ rest.head? ≠ some '('

/-- When a text goes on no numeral in front of it, and no name, its tokens come after the tokens of
the text in front. -/
theorem scan_append_of_separate {cs rest : List Char} (h : Numeral.Separate rest)
    (hword : ∀ c ∈ cs.getLast?, c.isAlpha = true → EndsWord rest) :
    scan (cs ++ rest) = scan cs ++ scan rest := by
  have hnumeral : ∀ cs : List Char, Numeral.scan (cs ++ rest) =
      (Numeral.scan cs).map fun m => (m.1, m.2 ++ rest) := fun cs => h.scan_append
  have hsuffix : ∀ {after cs : List Char}, after <:+ cs →
      (∀ c ∈ cs.getLast?, c.isAlpha = true → EndsWord rest) →
      ∀ c ∈ after.getLast?, c.isAlpha = true → EndsWord rest := by
    rintro after _ ⟨front, rfl⟩ hword c hc
    apply hword c
    rw [List.getLast?_append, hc]
    rfl
  fun_induction scan cs with
  | case1 => rfl
  | case2 c tail n after hscan ih =>
    have hscan' : Numeral.scan ((c :: tail) ++ rest) = some (n, after ++ rest) := by
      rw [hnumeral, hscan]
      rfl
    have hafter := ih (hsuffix ⟨n.text, Numeral.scan_text hscan⟩ hword)
    rw [scan_of_numeral hscan', hafter, List.cons_append]
  | case3 c tail hscan hc text after hafter ih =>
    have hcut : tail ++ rest = tail.takeWhile Char.isAlpha ++ '(' :: (after ++ rest) := by
      rw [← List.cons_append, ← hafter, ← List.append_assoc, List.takeWhile_append_dropWhile]
    have htail : after <:+ c :: tail := by
      refine ⟨c :: tail.takeWhile Char.isAlpha ++ ['('], ?_⟩
      rw [List.append_assoc, List.singleton_append, ← hafter, List.cons_append,
        List.takeWhile_append_dropWhile]
    rw [List.cons_append, hcut, ← List.cons_append,
      scan_function (by simp) (isAlpha_of_mem_takeWhile hc), ih (hsuffix htail hword)]
    rfl
  | case4 c tail hscan hc text hparen ih =>
    have hcut : tail ++ rest =
        tail.takeWhile Char.isAlpha ++ (tail.dropWhile Char.isAlpha ++ rest) := by
      rw [← List.append_assoc, List.takeWhile_append_dropWhile]
    have htail : tail.dropWhile Char.isAlpha <:+ c :: tail :=
      (List.dropWhile_suffix _).trans (List.suffix_cons c tail)
    -- The name may reach the end of the text in front, and then what follows must end it.
    have hends : EndsWord (tail.dropWhile Char.isAlpha ++ rest) := by
      cases hdrop : tail.dropWhile Char.isAlpha with
      | nil =>
        have hrow : c :: tail.takeWhile Char.isAlpha = c :: tail := by
          have := List.takeWhile_append_dropWhile (p := Char.isAlpha) (l := tail)
          rw [hdrop, List.append_nil] at this
          rw [this]
        have halpha : ∀ x ∈ c :: tail, x.isAlpha = true := hrow ▸ isAlpha_of_mem_takeWhile hc
        have hlast := List.getLast?_eq_some_getLast (List.cons_ne_nil c tail)
        exact hword _ hlast (halpha _ (List.mem_of_getLast? hlast))
      | cons d ds =>
        have hstop : StopsAt Char.isAlpha (tail.dropWhile Char.isAlpha) := stopsAt_dropWhile
        rw [hdrop] at hstop
        refine ⟨stopsAt_cons hstop.head, ?_⟩
        intro heq
        cases heq
        exact hparen ds hdrop
    rw [List.cons_append, hcut, ← List.cons_append,
      scan_name (by simp) (isAlpha_of_mem_takeWhile hc) hends.1 hends.2, ih (hsuffix htail hword)]
    rfl
  | case5 c tail hscan hc ih =>
    have hscan' : Numeral.scan (c :: (tail ++ rest)) = none := by
      rw [← List.cons_append, hnumeral, hscan]
      rfl
    rw [List.cons_append, scan_of_sign hscan' (by simpa using hc),
      ih (hsuffix (List.suffix_cons c tail) hword), List.cons_append]

theorem scan_append {cs rest : List Char} (h : StopsAt joins rest)
    (hsign : StopsAt Numeral.isSign rest) : scan (cs ++ rest) = scan cs ++ scan rest :=
  scan_append_of_separate (Numeral.separate_of_stops (stopsAt_numeral h) hsign)
    fun _ _ _ => ⟨stopsAt_isAlpha h, ne_openParen h⟩

/-! ## What typed tokens look like -/

/-- A token as the lexer gives it: a number has the text of a numeral, and the two kinds of tokens
that are never typed are not there. -/
def Typed : Token → Prop
  | .number text => Numeral.IsNumeral text.toList
  | .valueOf _ => False
  | .negate => False
  | _ => True

theorem typed_ofSign (c : Char) : (ofSign c).Typed := by
  unfold ofSign
  repeat' split
  all_goals trivial

theorem typed_scan (cs : List Char) : ∀ t ∈ scan cs, t.Typed := by
  fun_induction scan cs with
  | case1 => simp
  | case2 c tail n after hscan ih =>
    rw [List.forall_mem_cons]
    exact ⟨⟨n, Numeral.scan_wellFormed hscan, by simp⟩, ih⟩
  | case3 c tail hscan hc text after hafter ih =>
    rw [List.forall_mem_cons, List.forall_mem_cons]
    exact ⟨trivial, trivial, ih⟩
  | case4 c tail hscan hc text hparen ih =>
    rw [List.forall_mem_cons]
    exact ⟨trivial, ih⟩
  | case5 c tail hscan hc ih =>
    rw [List.forall_mem_cons]
    exact ⟨typed_ofSign c, ih⟩

end Token

end Calculator
