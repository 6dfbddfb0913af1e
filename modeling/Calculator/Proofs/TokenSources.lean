-- What a token tells of the text that it is read from. The sign of an operator
-- stands in the text, and so does the name of a function, with its parenthesis
-- right after it. All of it is read off from the rules of the cut.
import Calculator.Proofs.LexerRules

namespace Calculator

namespace Piece

/-- Every piece of a cut keeps the rules, and stands in the text with what follows it. -/
theorem Cut.byRule_of_mem {before : List Char} {pieces : List Piece} (h : Cut before pieces)
    {p : Piece} (hp : p ∈ pieces) :
    ∃ front after, ByRule front p after ∧ p.source ++ sources after <:+ sources pieces := by
  induction pieces generalizing before with
  | nil => cases hp
  | cons q later ih =>
    rcases List.mem_cons.mp hp with rfl | hp
    · exact ⟨before, later, h.1, List.suffix_rfl⟩
    · obtain ⟨front, after, hrule, hsuffix⟩ := ih h.2 hp
      exact ⟨front, after, hrule, hsuffix.trans (List.suffix_append _ _)⟩

/-- A piece that is no number, and no word except the root sign, is one character. -/
theorem ByRule.single {before : List Char} {p : Piece} {after : List Piece}
    (h : ByRule before p after) (hnumber : ∀ text, p.token ≠ .number text)
    (hname : ∀ text, p.token ≠ .name text)
    (hfunction : ∀ text, p.token = .function text → p.source = ['√']) :
    ∃ c, c.isAlpha = false ∧ p = ⟨.ofSign c, [c]⟩ := by
  apply h.sign
  · rintro ⟨text, htoken⟩
    exact hnumber text htoken
  · rintro (⟨text, htoken⟩ | ⟨⟨text, htoken⟩, hroot⟩)
    · exact hname text htoken
    · exact hroot (hfunction text htoken)

theorem starts_of_isDigit {c : Char} (h : c.isDigit = true) (cs : List Char) :
    Numeral.Starts (c :: cs) := by
  have hdigits : Numeral.IsDigits [c] := by
    intro d hd
    rw [List.mem_singleton.mp hd]
    exact h
  have hnil : Numeral.IsDigits [] := fun d hd => by cases hd
  refine ⟨[c], ⟨cs, rfl⟩, ⟨[c], none, none⟩, ⟨hdigits, hnil, by simp, ?_⟩, rfl⟩
  intro e he
  cases he

/-- A character of its own token is none of the characters that make another kind of token. -/
theorem eq_of_ofSign_eq_operator {c sign : Char} (h : Token.ofSign c = .operator sign) :
    c = sign ∧ sign ∉ ['(', ')', '%', '√'] := by
  unfold Token.ofSign at h
  split_ifs at h with h1 h2 h3 h4
  cases h
  simp [h1, h2, h3, h4]

end Piece

section

variable {text : String} {t : Token}

open Piece

theorem exists_piece_of_mem_tokenize (h : t ∈ tokenize text) :
    ∃ front p after, p.token = t ∧ ByRule front p after ∧
      p.source ++ sources after <:+ text.toList := by
  obtain ⟨pieces, hcut, hsources, htokens⟩ := exists_cut text.toList [] (apart_nil _)
  have hmem : t ∈ pieces.map token := htokens ▸ h
  obtain ⟨p, hp, htoken⟩ := List.mem_map.mp hmem
  obtain ⟨front, after, hrule, hsuffix⟩ := hcut.byRule_of_mem hp
  exact ⟨front, p, after, htoken, hrule, hsources ▸ hsuffix⟩

/-- The sign of an operator is a character of the text that starts no other token. -/
theorem sign_of_mem_tokenize {sign : Char} (h : .operator sign ∈ tokenize text) :
    sign ∈ text.toList ∧ sign.isAlpha = false ∧ sign.isDigit = false ∧
      sign ∉ ['(', ')', '%', '√'] := by
  obtain ⟨front, ⟨t, source⟩, after, rfl, hrule, hsuffix⟩ := exists_piece_of_mem_tokenize h
  obtain ⟨c, halpha, hpiece⟩ := hrule.single nofun nofun nofun
  have htoken : Token.ofSign c = .operator sign := (congrArg token hpiece).symm
  have hsource : source = [c] := congrArg Piece.source hpiece
  obtain ⟨rfl, hother⟩ := eq_of_ofSign_eq_operator htoken
  subst hsource
  refine ⟨hsuffix.subset List.mem_cons_self, halpha, ?_, hother⟩
  cases hdigit : c.isDigit with
  | false => rfl
  | true =>
    obtain ⟨text, htoken⟩ := hrule.number_iff.mpr (starts_of_isDigit hdigit _)
    cases htoken

theorem isAlpha_of_mem_tokenize {name : String} (h : .name name ∈ tokenize text) :
    ∀ c ∈ name.toList, c.isAlpha = true := by
  obtain ⟨front, ⟨t, source⟩, after, rfl, hrule, hsuffix⟩ := exists_piece_of_mem_tokenize h
  have hword : IsWord ⟨.name name, source⟩ := Or.inl ⟨name, rfl⟩
  have htoken : Token.name name = .ofLetters source (sources after) := hrule.word_token hword
  unfold Token.ofLetters at htoken
  split_ifs at htoken
  cases htoken
  rw [String.toList_ofList]
  exact (hrule.word_whole hword).isAlpha

/-- A function is written with the root sign, or it is a row of letters with a parenthesis right
after it. -/
theorem function_of_mem_tokenize {name : String} (h : .function name ∈ tokenize text) :
    name = "sqrt" ∨ name.toList ≠ [] ∧ (∀ c ∈ name.toList, c.isAlpha = true) ∧
      name.toList ++ ['('] <:+: text.toList := by
  obtain ⟨front, ⟨t, source⟩, after, rfl, hrule, hsuffix⟩ := exists_piece_of_mem_tokenize h
  by_cases hroot : source = ['√']
  · left
    obtain ⟨c, -, hpiece⟩ := hrule.single nofun nofun fun _ _ => hroot
    have htoken : Token.function name = .ofSign c := congrArg token hpiece
    have hc : ['√'] = [c] := hroot ▸ congrArg Piece.source hpiece
    cases hc
    cases htoken
    rfl
  · right
    have hword : IsWord ⟨.function name, source⟩ := Or.inr ⟨⟨name, rfl⟩, hroot⟩
    have htoken : Token.function name = .ofLetters source (sources after) := hrule.word_token hword
    have hwhole : WholeWord front source (sources after) := hrule.word_whole hword
    unfold Token.ofLetters at htoken
    split_ifs at htoken with hparen
    cases htoken
    obtain ⟨rest, hrest⟩ := List.head?_eq_some_iff.mp hparen
    rw [String.toList_ofList]
    refine ⟨hwhole.ne_nil, hwhole.isAlpha, ?_⟩
    have hinfix : source ++ ['('] <:+: source ++ sources after := by
      rw [hrest]
      exact ⟨[], rest, by simp⟩
    exact hinfix.trans hsuffix.isInfix

end

end Calculator
