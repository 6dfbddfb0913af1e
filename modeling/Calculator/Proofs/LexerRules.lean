-- The lexer keeps the rules of the cut, and the rules leave no choice: every text
-- is cut into pieces by the rules in exactly one way, and the tokens of the
-- pieces are what the lexer gives.
import Mathlib
import Calculator.Proofs.TokenScan
import Calculator.Token.Piece

namespace Calculator

/-! ## Where a numeral starts and ends -/

namespace Numeral

section

variable {cs rest : List Char} {n : Numeral}

/-- The scanner takes the longest numeral that starts a text. -/
theorem length_le_of_scan (h : scan cs = some (n, rest)) {front : List Char}
    (hfront : front <+: cs) (hnumeral : IsNumeral front) : front.length ≤ n.text.length := by
  obtain ⟨m, hm, rfl⟩ := hnumeral
  obtain ⟨tail, rfl⟩ := hfront
  obtain ⟨n', rest', hscan, hle⟩ := scan_reaches hm tail
  rw [h] at hscan
  cases hscan
  have hlength := congrArg List.length (scan_text h)
  rw [List.length_append, List.length_append] at hlength
  omega

theorem starts_iff : Starts cs ↔ ∃ n rest, scan cs = some (n, rest) := by
  constructor
  · rintro ⟨front, ⟨tail, rfl⟩, m, hm, rfl⟩
    obtain ⟨n, rest, hscan, -⟩ := scan_reaches hm tail
    exact ⟨n, rest, hscan⟩
  · rintro ⟨n, rest, h⟩
    exact ⟨n.text, ⟨rest, scan_text h⟩, n, scan_wellFormed h, rfl⟩

theorem not_starts (h : scan cs = none) : ¬ Starts cs := by
  intro hstarts
  obtain ⟨n, rest, hscan⟩ := starts_iff.mp hstarts
  rw [h] at hscan
  cases hscan

theorem text_ne_nil (h : scan cs = some (n, rest)) : n.text ≠ [] := by
  intro hnil
  have hlength := scan_rest_length h
  rw [← scan_text h, hnil] at hlength
  exact Nat.lt_irrefl _ hlength

end

theorem IsDigits.not_isAlpha_getLast {ds : List Char} (h : IsDigits ds) :
    ∀ c ∈ ds.getLast?, c.isAlpha = false := by
  intro c hc
  have hdigit := h c (List.mem_of_getLast? hc)
  cases halpha : c.isAlpha with
  | false => rfl
  | true =>
    rw [Token.not_isDigit_of_isAlpha halpha] at hdigit
    cases hdigit

/-- A numeral ends in a digit or in its point. -/
theorem not_isAlpha_getLast {n : Numeral} (hn : n.WellFormed) :
    ∀ c ∈ n.text.getLast?, c.isAlpha = false := by
  cases he : n.exponent with
  | some e =>
    have hwell := hn.exponent e he
    have hcut : n.text = (n.mantissaText ++ e.marker :: e.sign.toList) ++ e.digits := by
      simp [text, he, Exponent.text]
    rw [hcut, List.getLast?_append_of_ne_nil _ hwell.ne_nil]
    exact hwell.digits.not_isAlpha_getLast
  | none =>
    cases hf : n.fraction with
    | none =>
      simp only [text, he, mantissaText, hf]
      exact hn.whole.not_isAlpha_getLast
    | some fraction =>
      have hfraction : IsDigits fraction := by simpa [hf] using hn.fraction
      have hcut : n.text = (n.whole ++ ['.']) ++ fraction := by
        simp [text, he, mantissaText, hf]
      by_cases hnil : fraction = []
      · rw [hcut, hnil, List.append_nil]
        simp [Char.isAlpha, Char.isUpper, Char.isLower]
      · rw [hcut, List.getLast?_append_of_ne_nil _ hnil]
        exact hfraction.not_isAlpha_getLast

end Numeral

namespace Piece

variable {before : List Char} {p q : Piece} {after : List Piece}

/-! ## The three kinds of pieces keep the rules -/

theorem byRule_number {cs : List Char} {n : Numeral}
    (h : Numeral.scan cs = some (n, sources after)) :
    ByRule before ⟨.number (String.ofList n.text), n.text⟩ after := by
  have htext : n.text ++ sources after = cs := Numeral.scan_text h
  have hword : ¬ IsWord ⟨.number (String.ofList n.text), n.text⟩ := by
    rintro (⟨text, htoken⟩ | ⟨⟨text, htoken⟩, -⟩)
    · cases htoken
    · cases htoken
  refine ⟨Numeral.text_ne_nil h, ?_, ?_, fun hw => absurd hw hword, fun hw => absurd hw hword,
    fun hw => absurd hw hword, fun hnumber => absurd ⟨_, rfl⟩ hnumber⟩
  · rw [htext]
    exact ⟨fun _ => Numeral.starts_iff.mpr ⟨n, _, h⟩, fun _ => ⟨_, rfl⟩⟩
  · intro text htoken
    cases htoken
    rw [htext]
    exact ⟨String.toList_ofList, ⟨n, Numeral.scan_wellFormed h, rfl⟩,
      fun front => Numeral.length_le_of_scan h⟩

section

variable {letters rest : List Char}

theorem isWord_ofLetters (h : ∀ c ∈ letters, c.isAlpha = true) (rest : List Char) :
    IsWord ⟨.ofLetters letters rest, letters⟩ := by
  have hroot : letters ≠ ['√'] := by
    rintro rfl
    exact absurd (h '√' List.mem_cons_self) (by decide)
  unfold IsWord Token.ofLetters
  split
  · exact Or.inr ⟨⟨_, rfl⟩, hroot⟩
  · exact Or.inl ⟨_, rfl⟩

theorem not_isNumber_ofLetters : ¬ IsNumber ⟨.ofLetters letters rest, letters⟩ := by
  rintro ⟨text, htoken⟩
  simp only [Token.ofLetters] at htoken
  split at htoken
  · cases htoken
  · cases htoken

theorem byRule_word {t : Token} (ht : t = .ofLetters letters (sources after))
    (h : WholeWord before letters (sources after))
    (hparen : (sources after).head? = some '(' → after.head? = some ⟨.openParen, ['(']⟩) :
    ByRule before ⟨t, letters⟩ after := by
  subst ht
  have hword := isWord_ofLetters h.isAlpha (sources after)
  have hnone : Numeral.scan (letters ++ sources after) = none := by
    obtain ⟨c, cs, rfl⟩ := List.exists_cons_of_ne_nil h.ne_nil
    exact Token.numeral_of_isAlpha (h.isAlpha c List.mem_cons_self)
  exact ⟨h.ne_nil,
    ⟨fun hnumber => absurd hnumber not_isNumber_ofLetters,
      fun hstarts => absurd hstarts (Numeral.not_starts hnone)⟩,
    fun text htoken => absurd ⟨text, htoken⟩ not_isNumber_ofLetters, fun _ => h, fun _ => rfl,
    fun _ => hparen, fun _ hno => absurd hword hno⟩

end

section

variable {c : Char}

theorem not_isNumber_ofSign : ¬ IsNumber ⟨.ofSign c, [c]⟩ := by
  rintro ⟨text, htoken⟩
  simp only [Token.ofSign] at htoken
  split_ifs at htoken

theorem not_isWord_ofSign : ¬ IsWord ⟨.ofSign c, [c]⟩ := by
  rintro (⟨text, htoken⟩ | ⟨⟨text, htoken⟩, hsource⟩)
  · simp only [Token.ofSign] at htoken
    split_ifs at htoken
  · simp only [Token.ofSign] at htoken
    split_ifs at htoken with _ _ _ hroot
    exact hsource (by rw [hroot])

theorem byRule_sign (hnone : Numeral.scan (c :: sources after) = none)
    (halpha : c.isAlpha = false) : ByRule before ⟨.ofSign c, [c]⟩ after :=
  ⟨List.cons_ne_nil _ _,
    ⟨fun hnumber => absurd hnumber not_isNumber_ofSign,
      fun hstarts => absurd hstarts (Numeral.not_starts hnone)⟩,
    fun text htoken => absurd ⟨text, htoken⟩ not_isNumber_ofSign,
    fun hword => absurd hword not_isWord_ofSign, fun hword => absurd hword not_isWord_ofSign,
    fun hword => absurd hword not_isWord_ofSign, fun _ _ => ⟨c, halpha, rfl⟩⟩

end

/-! ## The lexer cuts by the rules -/

/-- No word goes on from one text into the other. -/
def Apart (before cs : List Char) : Prop :=
  ∀ c ∈ before.getLast?, c.isAlpha = true → StopsAt Char.isAlpha cs

theorem apart_nil (cs : List Char) : Apart [] cs := by
  intro c hc
  cases hc

theorem apart_append {source : List Char} (hne : source ≠ [])
    (hlast : ∀ c ∈ source.getLast?, c.isAlpha = false) (before cs : List Char) :
    Apart (before ++ source) cs := by
  intro c hc halpha
  rw [List.getLast?_append_of_ne_nil _ hne] at hc
  rw [hlast c hc] at halpha
  cases halpha

theorem apart_append_sign {c : Char} (hc : c.isAlpha = false) (before cs : List Char) :
    Apart (before ++ [c]) cs := by
  refine apart_append (List.cons_ne_nil c []) ?_ before cs
  intro d hd
  cases hd
  exact hc

/-- The word that starts with a letter is whole, when it does not go on one in front of it. -/
theorem wholeWord_takeWhile {c : Char} {cs rest : List Char} (h : Apart before (c :: cs))
    (hc : c.isAlpha = true) (hrest : StopsAt Char.isAlpha rest) :
    WholeWord before (c :: cs.takeWhile Char.isAlpha) rest := by
  refine ⟨List.cons_ne_nil _ _, Token.isAlpha_of_mem_takeWhile hc, ?_, hrest⟩
  intro d hd
  cases halpha : d.isAlpha with
  | false => rfl
  | true =>
    have hstop := (h d hd halpha).head
    rw [hc] at hstop
    cases hstop

/-- The tokens of a text come from pieces that keep the rules. -/
theorem exists_cut (cs before : List Char) (h : Apart before cs) :
    ∃ pieces, Cut before pieces ∧ sources pieces = cs ∧ pieces.map token = Token.scan cs := by
  fun_induction Token.scan cs generalizing before with
  | case1 => exact ⟨[], trivial, rfl, rfl⟩
  | case2 c tail n after hscan ih =>
    have hlast := Numeral.not_isAlpha_getLast (Numeral.scan_wellFormed hscan)
    obtain ⟨pieces, hcut, hsources, htokens⟩ :=
      ih _ (apart_append (Numeral.text_ne_nil hscan) hlast before after)
    refine ⟨⟨.number (String.ofList n.text), n.text⟩ :: pieces, ⟨?_, hcut⟩, ?_, ?_⟩
    · exact byRule_number (hsources ▸ hscan)
    · rw [sources_cons, hsources]
      exact Numeral.scan_text hscan
    · rw [List.map_cons, htokens]
  | case3 c tail hscan hc text after hafter ih =>
    have hcut : tail.takeWhile Char.isAlpha ++ '(' :: after = tail := by
      rw [← hafter, List.takeWhile_append_dropWhile]
    obtain ⟨pieces, hpieces, hsources, htokens⟩ :=
      ih _ (apart_append_sign (c := '(') rfl (before ++ c :: tail.takeWhile Char.isAlpha) after)
    have hparen : ByRule (before ++ c :: tail.takeWhile Char.isAlpha) ⟨.openParen, ['(']⟩ pieces :=
      byRule_sign (c := '(') (Numeral.scan_eq_none rfl (by decide)) rfl
    have hword : ByRule before ⟨.function text, c :: tail.takeWhile Char.isAlpha⟩
        (⟨.openParen, ['(']⟩ :: pieces) :=
      byRule_word (if_pos rfl).symm (wholeWord_takeWhile h hc (stopsAt_cons rfl)) fun _ => rfl
    refine ⟨_ :: _ :: pieces, ⟨hword, hparen, hpieces⟩, ?_, ?_⟩
    · simp only [sources_cons, hsources, List.cons_append, List.nil_append, hcut]
    · rw [List.map_cons, List.map_cons, htokens]
  | case4 c tail hscan hc text hparen ih =>
    have hstop : StopsAt Char.isAlpha (tail.dropWhile Char.isAlpha) := stopsAt_dropWhile
    have hhead : (tail.dropWhile Char.isAlpha).head? ≠ some '(' := by
      intro heq
      obtain ⟨after, hafter⟩ := List.head?_eq_some_iff.mp heq
      exact hparen after hafter
    obtain ⟨pieces, hpieces, hsources, htokens⟩ :=
      ih (before ++ c :: tail.takeWhile Char.isAlpha) fun _ _ _ => hstop
    rw [← hsources] at hstop hhead
    have hword : ByRule before ⟨.name text, c :: tail.takeWhile Char.isAlpha⟩ pieces :=
      byRule_word (if_neg hhead).symm (wholeWord_takeWhile h hc hstop) fun h => absurd h hhead
    refine ⟨_ :: pieces, ⟨hword, hpieces⟩, ?_, ?_⟩
    · rw [sources_cons, hsources, List.cons_append, List.takeWhile_append_dropWhile]
    · rw [List.map_cons, htokens]
  | case5 c tail hscan hc ih =>
    have halpha : c.isAlpha = false := by simpa using hc
    obtain ⟨pieces, hpieces, hsources, htokens⟩ := ih _ (apart_append_sign halpha before tail)
    refine ⟨⟨.ofSign c, [c]⟩ :: pieces, ⟨byRule_sign ?_ halpha, hpieces⟩, ?_, ?_⟩
    · rw [hsources]
      exact hscan
    · rw [sources_cons, hsources, List.singleton_append]
    · rw [List.map_cons, htokens]

/-! ## The rules leave no choice -/

/-- The piece that the rules want at the front of a text. -/
def first? : List Char → Option Piece
  | [] => none
  | c :: cs =>
    match Numeral.scan (c :: cs) with
    | some (n, _) => some ⟨.number (String.ofList n.text), n.text⟩
    | none =>
      if c.isAlpha then
        let letters := (c :: cs).takeWhile Char.isAlpha
        some ⟨.ofLetters letters ((c :: cs).dropWhile Char.isAlpha), letters⟩
      else some ⟨.ofSign c, [c]⟩

theorem first?_of_scan {cs rest : List Char} {n : Numeral} (h : Numeral.scan cs = some (n, rest)) :
    first? cs = some ⟨.number (String.ofList n.text), n.text⟩ := by
  cases cs with
  | nil => cases h
  | cons c cs => simp only [first?, h]

/-- A piece by the rules is the one that they want. -/
theorem ByRule.first (h : ByRule before p after) :
    first? (p.source ++ sources after) = some p := by
  obtain ⟨t, source⟩ := p
  by_cases hnumber : IsNumber ⟨t, source⟩
  · -- The longest numeral is found, and there is only one of its length.
    obtain ⟨n, rest, hscan⟩ := Numeral.starts_iff.mp (h.number_iff.mp hnumber)
    obtain ⟨text, rfl⟩ := hnumber
    obtain ⟨htext, hnumeral, hlongest⟩ := h.number_longest text rfl
    have hcut := Numeral.scan_text hscan
    have hle := Numeral.length_le_of_scan hscan (List.prefix_append _ _) hnumeral
    have hge := hlongest n.text ⟨rest, hcut⟩ ⟨n, Numeral.scan_wellFormed hscan, rfl⟩
    have hsource : n.text = source := List.append_inj_left hcut (Nat.le_antisymm hge hle)
    rw [first?_of_scan hscan, hsource.trans htext.symm, String.ofList_toList, htext]
  · have hnone : Numeral.scan (source ++ sources after) = none := by
      cases hscan : Numeral.scan (source ++ sources after) with
      | none => rfl
      | some found =>
        exact absurd (h.number_iff.mpr (Numeral.starts_iff.mpr ⟨_, _, hscan⟩)) hnumber
    by_cases hword : IsWord ⟨t, source⟩
    · obtain ⟨hne, halpha, -, hends⟩ := h.word_whole hword
      have htoken : t = .ofLetters source (sources after) := h.word_token hword
      have htake := StopsAt.takeWhile_row hends halpha
      have hdrop := StopsAt.dropWhile_row hends halpha
      obtain ⟨c, cs, rfl⟩ := List.exists_cons_of_ne_nil hne
      rw [List.cons_append] at hnone htake hdrop ⊢
      simp only [first?, hnone, halpha c List.mem_cons_self, if_true, htake, hdrop, htoken]
    · obtain ⟨c, halpha, hpiece⟩ := h.sign hnumber hword
      cases hpiece
      rw [List.singleton_append] at hnone ⊢
      simp [first?, hnone, halpha]

theorem Cut.unique {pieces others : List Piece} (h : Cut before pieces) (h' : Cut before others)
    (hsources : sources others = sources pieces) : others = pieces := by
  induction pieces generalizing before others with
  | nil =>
    cases others with
    | nil => rfl
    | cons q later => exact absurd (List.append_eq_nil_iff.mp hsources).1 h'.1.ne_nil
  | cons p after ih =>
    cases others with
    | nil => exact absurd (List.append_eq_nil_iff.mp hsources.symm).1 h.1.ne_nil
    | cons q later =>
      have hfirst := h'.1.first
      rw [sources_cons, sources_cons] at hsources
      rw [hsources, h.1.first] at hfirst
      cases hfirst
      rw [ih h.2 h'.2 (List.append_cancel_left hsources)]

/-! ## No character is lost -/

theorem spellRoot_eq {c : Char} (h : c ≠ '√') : Token.spellRoot c = [c] := if_neg h

theorem flatMap_spellRoot {cs : List Char} (h : '√' ∉ cs) : cs.flatMap Token.spellRoot = cs := by
  induction cs with
  | nil => rfl
  | cons c cs ih =>
    rw [List.mem_cons, not_or] at h
    rw [List.flatMap_cons, spellRoot_eq (Ne.symm h.1), ih h.2, List.singleton_append]

theorem written_ofSign (c : Char) : (Token.ofSign c).written = Token.spellRoot c := by
  unfold Token.ofSign
  split_ifs with h1 h2 h3 h4
  · rw [h1]; rfl
  · rw [h2]; rfl
  · rw [h3]; rfl
  · rw [h4]; rfl
  · exact (spellRoot_eq h4).symm

/-- A token is written as its source, with the root sign spelled. -/
theorem ByRule.written (h : ByRule before p after) :
    p.token.written = p.source.flatMap Token.spellRoot := by
  obtain ⟨t, source⟩ := p
  by_cases hnumber : IsNumber ⟨t, source⟩
  · obtain ⟨text, rfl⟩ := hnumber
    obtain ⟨htext, ⟨n, hn, rfl⟩, -⟩ := h.number_longest text rfl
    have hroot : '√' ∉ n.text := by
      intro hmem
      rcases Numeral.mem_text hn _ hmem with hc | hc
      · exact absurd hc (by decide)
      · exact absurd hc (by decide)
    rw [flatMap_spellRoot hroot]
    exact htext
  · by_cases hword : IsWord ⟨t, source⟩
    · have htoken : t = .ofLetters source (sources after) := h.word_token hword
      have hroot : '√' ∉ source := by
        intro hmem
        exact absurd ((h.word_whole hword).isAlpha _ hmem) (by decide)
      rw [flatMap_spellRoot hroot]
      simp only [htoken, Token.ofLetters]
      split
      · exact String.toList_ofList
      · exact String.toList_ofList
    · obtain ⟨c, -, hpiece⟩ := h.sign hnumber hword
      cases hpiece
      simp [written_ofSign]

theorem Cut.written {pieces : List Piece} (h : Cut before pieces) :
    (pieces.map token).flatMap Token.written = (sources pieces).flatMap Token.spellRoot := by
  induction pieces generalizing before with
  | nil => rfl
  | cons p after ih =>
    rw [List.map_cons, List.flatMap_cons, sources_cons, List.flatMap_append, h.1.written, ih h.2]

theorem Cut.length_le {pieces : List Piece} (h : Cut before pieces) :
    pieces.length ≤ (sources pieces).length := by
  induction pieces generalizing before with
  | nil => exact Nat.le_refl 0
  | cons p after ih =>
    have hfirst := List.length_pos_iff.mpr h.1.ne_nil
    have hrest := ih h.2
    rw [List.length_cons, sources_cons, List.length_append]
    omega

end Piece

/-! ## The law -/

open Piece in
/-- Every text is cut by the rules in exactly one way, and the lexer gives the tokens of that cut.
Together they write the text, and there are no more of them than characters. -/
theorem every_text_is_cut_in_one_way (text : String) :
    (tokenize text).flatMap Token.written = text.toList.flatMap Token.spellRoot ∧
      (tokenize text).length ≤ text.toList.length ∧
      ∃ pieces, Cut [] pieces ∧ sources pieces = text.toList ∧
        pieces.map token = tokenize text ∧
        ∀ others, Cut [] others → sources others = text.toList → others = pieces := by
  obtain ⟨pieces, hcut, hsources, htokens⟩ := exists_cut text.toList [] (apart_nil _)
  refine ⟨?_, ?_, pieces, hcut, hsources, htokens, fun others hothers heq => ?_⟩
  · rw [tokenize, ← htokens, hcut.written, hsources]
  · rw [tokenize, ← htokens, List.length_map, ← hsources]
    exact hcut.length_le
  · exact hcut.unique hothers (heq.trans hsources.symm)

open Piece in
/-- What is left over when a numeral ends early starts a piece of its own. -/
theorem a_second_point_starts_a_numeral :
    ∃ pieces, Cut [] pieces ∧ sources pieces = "1..5e+".toList ∧
      pieces.map token = [.number "1.", .number ".5", .name "e", .operator '+'] := by
  obtain ⟨-, -, pieces, hcut, hsources, htokens, -⟩ := every_text_is_cut_in_one_way "1..5e+"
  have hscan : tokenize "1..5e+" = [.number "1.", .number ".5", .name "e", .operator '+'] := by
    decide +kernel
  exact ⟨pieces, hcut, hsources, htokens.trans hscan⟩

end Calculator
