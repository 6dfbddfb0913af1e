-- The sign for pi is spelled with letters before the text is cut. So letters
-- beside it join it in one word, and a parenthesis right after it makes the word
-- a function. It is the constant exactly where nothing joins it, and a name that
-- it is only a part of is worth zero.
import Calculator.Evaluation
import Calculator.Proofs.TokenScan
import Calculator.Token.Piece

namespace Calculator

/-! ## Words in a text -/

/-- A letter goes on no numeral in front of it, when it is the marker of no exponent. -/
theorem separate_letter {c : Char} {rest : List Char} (hc : c.isAlpha = true)
    (hdigit : StopsAt Char.isDigit rest) (hsign : StopsAt Numeral.isSign rest) :
    Numeral.Separate (c :: rest) := by
  have hne : ∀ d : Char, d.isAlpha = false → c ≠ d := by
    rintro d hd rfl
    rw [hc] at hd
    cases hd
  refine ⟨stopsAt_cons (Token.not_isDigit_of_isAlpha hc), ?_, stopsAt_cons ?_, ?_⟩
  · rintro tail heq
    exact hne '.' (by decide) (List.cons.inj heq).1
  · simp [Numeral.isSign, hne '+' (by decide), hne '-' (by decide)]
  · have hnone : Numeral.scanSign rest = (none, rest) := by
      have hsplit : Numeral.scanSign ([] ++ rest) = _ := Numeral.scanSign_append_of_stops hsign
      simpa [Numeral.scanSign] using hsplit
    simp [Numeral.scanExponent, hnone, hdigit.takeWhile_eq]

theorem stopsAt_of_isAlpha {p : Char → Bool} (hp : ∀ c, c.isAlpha = true → p c = false)
    {letters : List Char} (h : ∀ c ∈ letters, c.isAlpha = true) : StopsAt p letters := by
  intro c hc
  exact hp c (h c (List.mem_of_head? hc))

theorem separate_letters {letters rest : List Char} (h : ∀ c ∈ letters, c.isAlpha = true)
    (hne : letters ≠ []) (hmore : 2 ≤ letters.length ∨ rest = []) :
    Numeral.Separate (letters ++ rest) := by
  obtain ⟨c, cs, rfl⟩ := List.exists_cons_of_ne_nil hne
  rw [List.forall_mem_cons] at h
  have hstops : ∀ p : Char → Bool, (∀ c, c.isAlpha = true → p c = false) →
      StopsAt p (cs ++ rest) := by
    intro p hp
    have hletters : StopsAt p cs := stopsAt_of_isAlpha hp h.2
    cases cs with
    | nil =>
      rcases hmore with hlength | rfl
      · exact absurd hlength (by simp)
      · exact stopsAt_nil
    | cons d ds => exact stopsAt_cons hletters.head
  apply separate_letter h.1 (hstops _ fun _ => Token.not_isDigit_of_isAlpha)
  apply hstops
  intro d hd
  have hplus : d ≠ '+' := by rintro rfl; cases hd
  have hminus : d ≠ '-' := by rintro rfl; cases hd
  simp [Numeral.isSign, hplus, hminus]

/-- A whole word is one token, between the tokens of what stands on its sides. -/
theorem scan_word {front letters rest : List Char} (h : WholeWord front letters rest)
    (hmore : 2 ≤ letters.length ∨ rest = []) :
    Token.scan (front ++ (letters ++ rest)) =
      Token.scan front ++ .ofLetters letters rest :: Token.scan rest := by
  have hapart : ∀ c ∈ front.getLast?, c.isAlpha = true → Token.EndsWord (letters ++ rest) := by
    intro c hc halpha
    rw [h.starts c hc] at halpha
    cases halpha
  rw [Token.scan_append_of_separate (separate_letters h.isAlpha h.ne_nil hmore) hapart,
    Token.scan_letters h.ne_nil h.isAlpha h.ends]
  rfl

theorem exists_last_letters (cs : List Char) : ∃ front letters, cs = front ++ letters ∧
    (∀ c ∈ letters, c.isAlpha = true) ∧ ∀ c ∈ front.getLast?, c.isAlpha = false := by
  induction cs using List.reverseRecOn with
  | nil => exact ⟨[], [], rfl, by simp, by simp⟩
  | append_singleton cs c ih =>
    cases hc : c.isAlpha with
    | false => exact ⟨cs ++ [c], [], by simp, by simp, by simp [hc]⟩
    | true =>
      obtain ⟨front, letters, rfl, hletters, hfront⟩ := ih
      refine ⟨front, letters ++ [c], by simp, ?_, hfront⟩
      intro d hd
      rcases List.mem_append.mp hd with hd | hd
      · exact hletters d hd
      · rw [List.mem_singleton.mp hd]
        exact hc

/-! ## The word that the sign is a part of -/

/-- The letters of the word that the sign for pi makes with the letters on its sides. -/
def piWord (left right : List Char) : List Char := left ++ 'P' :: 'I' :: right

/-- The sign for pi with the letters that join it, between what stands on both sides of them. -/
structure AroundPi (before after front left right rest : List Char) : Prop where
  before_eq : before = front ++ left
  after_eq : after = right ++ rest
  word : WholeWord front (piWord left right) rest

theorem exists_aroundPi (before after : List Char) :
    ∃ front left right rest, AroundPi before after front left right rest := by
  obtain ⟨front, left, hbefore, hleft, hfront⟩ := exists_last_letters before
  refine ⟨front, left, after.takeWhile Char.isAlpha, after.dropWhile Char.isAlpha, hbefore,
    List.takeWhile_append_dropWhile.symm, by simp [piWord], ?_, hfront, stopsAt_dropWhile⟩
  intro c hc
  simp only [piWord, List.mem_append, List.mem_cons] at hc
  rcases hc with hc | rfl | rfl | hc
  · exact hleft c hc
  · rfl
  · rfl
  · exact List.mem_takeWhile_imp hc

section

variable {front left right rest : List Char}

/-- A name with the sign for pi in it is worth pi when it is nothing else, and otherwise zero. -/
theorem value_piWord (answer : Float) (left right : List Char) :
    Constant.value answer (String.ofList (piWord left right)) =
      if left = [] ∧ right = [] then Constant.pi else 0 := by
  have hcapitals : (piWord left right).map Constant.capital =
      left.map Constant.capital ++ 'P' :: 'I' :: right.map Constant.capital := by
    rw [piWord, List.map_append]
    rfl
  have hother : ∀ name : List Char, 'P' ∉ name →
      (piWord left right).map Constant.capital ≠ name := by
    rintro _ hnot rfl
    rw [hcapitals] at hnot
    simp at hnot
  have hpi : (piWord left right).map Constant.capital = ['P', 'I'] ↔ left = [] ∧ right = [] := by
    rw [hcapitals]
    constructor
    · intro h
      have hlength := congrArg List.length h
      simp only [List.length_append, List.length_cons, List.length_map, List.length_nil] at hlength
      exact ⟨List.length_eq_zero_iff.mp (by omega), List.length_eq_zero_iff.mp (by omega)⟩
    · rintro ⟨rfl, rfl⟩
      rfl
  simp only [Constant.value, String.toList_ofList, hother ['A', 'N', 'S'] (by decide),
    hother ['Π'] (by decide), hother ['E'] (by decide), hpi, or_false, if_false]

theorem ofLetters_eq_name_iff {letters : List Char} {text : String} :
    Token.ofLetters letters rest = .name text ↔
      rest.head? ≠ some '(' ∧ String.ofList letters = text := by
  unfold Token.ofLetters
  split
  · simp [*]
  · simp [*]

theorem tokenize_pi {a b : String}
    (h : AroundPi (plain a).toList (plain b).toList front left right rest) :
    tokenize (plain (a ++ "π" ++ b)) =
      Token.scan front ++ .ofLetters (piWord left right) rest :: Token.scan rest := by
  have hplain : (plain (a ++ "π" ++ b)).toList = front ++ (piWord left right ++ rest) := by
    have hpi : (plain "π").toList = ['P', 'I'] := by decide
    rw [plain_append, plain_append, String.toList_append, String.toList_append, hpi, h.before_eq,
      h.after_eq]
    simp [piWord]
  have hlength : 2 ≤ (piWord left right).length := by
    simp only [piWord, List.length_append, List.length_cons]
    omega
  rw [tokenize, hplain, scan_word h.word (Or.inl hlength)]

section

variable {before after : List Char}

theorem AroundPi.left_eq_nil (h : AroundPi before after front left right rest)
    (hbefore : ∀ c ∈ before.getLast?, c.isAlpha = false) : left = [] := by
  by_contra hne
  have halpha := h.word.isAlpha _ (List.mem_append_left _ (List.getLast_mem hne))
  have hlast : before.getLast? = some (left.getLast hne) := by
    rw [h.before_eq, List.getLast?_append, List.getLast?_eq_some_getLast hne]
    rfl
  rw [hbefore _ hlast] at halpha
  cases halpha

theorem AroundPi.right_eq_nil (h : AroundPi before after front left right rest)
    (hafter : ∀ c ∈ after.head?, c.isAlpha = false) : right = [] := by
  cases right with
  | nil => rfl
  | cons c cs =>
    have halpha := h.word.isAlpha c (by simp [piWord])
    rw [hafter c (by rw [h.after_eq]; rfl)] at halpha
    cases halpha

theorem scan_before (h : AroundPi before after front left right rest)
    (hleft : left ≠ []) :
    Token.scan before = Token.scan front ++ [.name (String.ofList left)] := by
  have hword : WholeWord front left [] := by
    refine ⟨hleft, fun c hc => h.word.isAlpha c ?_, h.word.starts, stopsAt_nil⟩
    exact List.mem_append_left _ hc
  have hscan := scan_word hword (Or.inr rfl)
  have hname : Token.ofLetters left [] = .name (String.ofList left) := rfl
  have hend : Token.scan [] = [] := by rw [Token.scan]
  rwa [List.append_nil, ← h.before_eq, hname, hend] at hscan

end

/-- Where no letter joins the sign, and no parenthesis makes a function of it, its token is the
constant. -/
theorem tokenize_alone {a b : String}
    (h : AroundPi (plain a).toList (plain b).toList front [] [] rest)
    (hparen : rest.head? ≠ some '(') :
    tokenize (plain (a ++ "π" ++ b)) =
      tokenize (plain a) ++ [.name "PI"] ++ tokenize (plain b) := by
  have hname : Token.ofLetters (piWord [] []) rest = .name "PI" :=
    ofLetters_eq_name_iff.mpr ⟨hparen, rfl⟩
  have hfront : (plain a).toList = front := by rw [h.before_eq, List.append_nil]
  have hrest : (plain b).toList = rest := h.after_eq
  rw [tokenize_pi h, tokenize, tokenize, hfront, hrest, hname, List.append_assoc]
  rfl

/-- Only then do the tokens of the two sides have the constant between them. -/
theorem alone_of_tokenize {a b : String}
    (h : AroundPi (plain a).toList (plain b).toList front left right rest)
    (hlaw : tokenize (plain (a ++ "π" ++ b)) =
      tokenize (plain a) ++ [.name "PI"] ++ tokenize (plain b)) :
    left = [] ∧ right = [] ∧ rest.head? ≠ some '(' := by
  have hword : ∀ {name : List Char}, Token.ofLetters (piWord left right) rest =
      .name (String.ofList name) → rest.head? ≠ some '(' ∧ piWord left right = name := by
    intro name hname
    obtain ⟨hparen, hletters⟩ := ofLetters_eq_name_iff.mp hname
    exact ⟨hparen, String.ofList_injective hletters⟩
  rw [tokenize_pi h, tokenize, tokenize] at hlaw
  by_cases hleft : left = []
  · subst hleft
    have hbefore : (plain a).toList = front := by rw [h.before_eq, List.append_nil]
    rw [hbefore, List.append_assoc] at hlaw
    have hname : Token.ofLetters (piWord [] right) rest = .name (String.ofList ['P', 'I']) :=
      (List.cons.inj (List.append_cancel_left hlaw)).1
    obtain ⟨hparen, hletters⟩ := hword hname
    exact ⟨rfl, by simpa [piWord] using hletters, hparen⟩
  · -- The word would be the name in front of it, which is shorter.
    rw [scan_before h hleft, List.append_assoc, List.append_assoc] at hlaw
    obtain ⟨-, hletters⟩ := hword (List.cons.inj (List.append_cancel_left hlaw)).1
    have hlength := congrArg List.length hletters
    simp only [piWord, List.length_append, List.length_cons] at hlength
    omega

end

/-! ## The law -/

/-- The sign for pi is the constant exactly where no letter stands next to it and no parenthesis
right behind it. Elsewhere it is one token with these letters, and as a name it is worth zero. -/
theorem the_pi_sign_is_the_constant_exactly_where_nothing_joins_it (a b : String) :
    (tokenize (plain (a ++ "π" ++ b)) =
        tokenize (plain a) ++ [.name "PI"] ++ tokenize (plain b) ↔
      (∀ c ∈ (plain a).toList.getLast?, c.isAlpha = false) ∧
        ∀ c ∈ (plain b).toList.head?, c.isAlpha = false ∧ c ≠ '(') ∧
    ∃ front left right rest, AroundPi (plain a).toList (plain b).toList front left right rest ∧
      tokenize (plain (a ++ "π" ++ b)) =
        Token.scan front ++ .ofLetters (piWord left right) rest :: Token.scan rest ∧
      ∀ answer, Constant.value answer (String.ofList (piWord left right)) =
        if left = [] ∧ right = [] then Constant.pi else 0 := by
  obtain ⟨front, left, right, rest, h⟩ := exists_aroundPi (plain a).toList (plain b).toList
  refine ⟨⟨fun hlaw => ?_, fun ⟨hbefore, hafter⟩ => ?_⟩, front, left, right, rest, h,
    tokenize_pi h, fun answer => value_piWord answer left right⟩
  · obtain ⟨rfl, rfl, hparen⟩ := alone_of_tokenize h hlaw
    rw [h.before_eq, h.after_eq, List.append_nil, List.nil_append]
    refine ⟨h.word.starts, fun c hc => ⟨h.word.ends c hc, ?_⟩⟩
    rintro rfl
    exact hparen hc
  · obtain rfl := h.left_eq_nil hbefore
    obtain rfl := h.right_eq_nil fun c hc => (hafter c hc).1
    apply tokenize_alone h
    intro hhead
    rw [h.after_eq, List.nil_append] at hafter
    exact (hafter '(' hhead).2 rfl

/-- Two signs for pi are one name, which is worth zero. -/
theorem two_pi_signs_are_one_name_worth_zero :
    tokenize (plain ("π" ++ "π" ++ "")) ≠
        tokenize (plain "π") ++ [.name "PI"] ++ tokenize (plain "") ∧
      evaluate {} "ππ" = .ok 0 ∧ evaluate {} "2π" = .error .malformed := by
  decide +kernel

end Calculator
