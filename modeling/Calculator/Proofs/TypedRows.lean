-- Which rows of typed tokens are accepted. A row is an expression, once its
-- missing parentheses are there, exactly when it has no slips. A row with slips
-- of one kind only is refused. Slips of the two kinds can make up for each
-- other: `2(3)+` has the value of `2+(3)`.
import Mathlib.Data.List.Induction
import Calculator.Infix
import Calculator.Proofs.NumberText
import Calculator.Proofs.OperandCount
import Calculator.Proofs.TokenScan

namespace Calculator

/-! ## An expression has no slips -/

/-- Where an operand is due, an expression is one operand and nothing else. -/
theorem Infix.foldl_slips {ts : List Token} (h : Infix ts) (juxtaposed missing : Nat) :
    ts.foldl Slips.step ⟨false, juxtaposed, missing⟩ = ⟨true, juxtaposed, missing⟩ := by
  induction h with
  | number text => rfl
  | name text => rfl
  | group _ ih =>
    simp only [List.foldl_cons, List.foldl_append, List.foldl_nil, Slips.step, Slips.start,
      Bool.false_eq_true, if_false, ih]
    rfl
  | call text _ ih =>
    simp only [List.foldl_cons, List.foldl_append, List.foldl_nil, Slips.step, Slips.start,
      Bool.false_eq_true, if_false, ih]
    rfl
  | bareCall text _ ih =>
    simp only [List.foldl_cons, Slips.step, Slips.start, Bool.false_eq_true, if_false, ih]
  | negate _ ih =>
    simp only [List.foldl_cons, Slips.step, and_self, if_true, ih]
  | percent _ ih =>
    simp only [List.foldl_append, List.foldl_cons, List.foldl_nil, Slips.step, Slips.need, ih,
      if_true]
  | binary _ _ _ iha ihb =>
    simp only [List.foldl_append, List.foldl_cons, Slips.step, Slips.need, iha, ihb,
      Bool.true_eq_false, and_false, if_false, if_true]

theorem foldl_openParens (n : Nat) :
    (List.replicate n Token.openParen).foldl Slips.step {} = {} := by
  induction n with
  | zero => rfl
  | succ n ih =>
    rw [List.replicate_succ, List.foldl_cons]
    exact ih

theorem need_foldl_closeParens (m : Nat) (s : Slips) :
    ((List.replicate m Token.closeParen).foldl Slips.step s).need true = s.need true := by
  induction m generalizing s with
  | zero => rfl
  | succ m ih =>
    rw [List.replicate_succ, List.foldl_cons, ih]
    rfl

theorem slips_completed (ts : List Token) : slips (completed ts) = slips ts := by
  unfold slips completed
  rw [List.foldl_append, List.foldl_append, foldl_openParens, need_foldl_closeParens]

/-! ## A row with no slips is an expression -/

/-- A row that any expression makes an expression. -/
def Frame (ts : List Token) : Prop := ∀ a, Infix a → Infix (ts ++ a)

/-- A row with some parentheses open. Frames stand in front of the parentheses, and the last part
is of the kind `P`. -/
def Nested : (P : List Token → Prop) → (depth : Nat) → List Token → Prop
  | P, 0, ts => P ts
  | P, depth + 1, ts =>
    ∃ outer inner, Nested Frame depth outer ∧ P inner ∧ ts = outer ++ .openParen :: inner

theorem frame_nil : Frame [] := fun _ ha => ha

section

variable {P Q : List Token → Prop} {depth : Nat} {ts : List Token}

theorem Nested.append {us : List Token} (h : Nested P depth ts)
    (hPQ : ∀ a, P a → Q (a ++ us)) : Nested Q depth (ts ++ us) := by
  cases depth with
  | zero => exact hPQ ts h
  | succ depth =>
    obtain ⟨outer, inner, houter, hinner, rfl⟩ := h
    exact ⟨outer, inner ++ us, houter, hPQ inner hinner, by simp⟩

theorem Nested.openGroup (h : Nested Frame depth ts) :
    Nested Frame (depth + 1) (ts ++ [.openParen]) :=
  ⟨ts, [], h, frame_nil, rfl⟩

theorem Nested.closeGroup (h : Nested Infix (depth + 1) ts) :
    Nested Infix depth (ts ++ [.closeParen]) := by
  obtain ⟨outer, inner, houter, hinner, rfl⟩ := h
  have hgroup : Infix (.openParen :: (inner ++ [.closeParen])) := Infix.group hinner
  have hfilled := houter.append (Q := Infix) fun a ha => ha _ hgroup
  simpa using hfilled

theorem Nested.closeAll (h : Nested Infix depth ts) :
    Infix (ts ++ List.replicate depth .closeParen) := by
  induction depth generalizing ts with
  | zero => simpa [Nested] using h
  | succ depth ih =>
    rw [List.replicate_succ, ← List.singleton_append, ← List.append_assoc]
    exact ih h.closeGroup

end

/-- A typed token whose sign, if it is one, is the sign of an operator with two operands. -/
def Token.Readable : Token → Prop
  | .operator sign => sign ∈ binarySigns
  | .valueOf _ => False
  | .negate => False
  | _ => True

/-- How a row reads so far, once its missing opening parentheses are in front: after an operand
the last part is an expression, and otherwise it is a frame. -/
def Reads (s : Slips) (u : Unpaired) (ts : List Token) : Prop :=
  Nested (if s.afterOperand then Infix else Frame) u.opening
    (List.replicate u.closing .openParen ++ ts)

section

variable {s : Slips} {u : Unpaired} {ts : List Token} {t : Token}

/-- A token that starts an operand is no slip only where an operand is due. -/
theorem Slips.due_of_start {ends : Bool} (h : (s.start ends).juxtaposed = s.juxtaposed) :
    s.afterOperand = false := by
  cases hs : s.afterOperand with
  | false => rfl
  | true => simp [start, hs] at h

theorem Slips.ends_of_need {ends : Bool} (h : (s.need ends).missing = s.missing) :
    s.afterOperand = true := by
  cases hs : s.afterOperand with
  | true => rfl
  | false => simp [need, hs] at h

/-- One token that is no slip keeps the row readable. -/
theorem Reads.step (h : Reads s u ts) (ht : t.Readable)
    (hjuxtaposed : (s.step t).juxtaposed = s.juxtaposed)
    (hmissing : (s.step t).missing = s.missing) : Reads (s.step t) (u.step t) (ts ++ [t]) := by
  unfold Reads at h ⊢
  rw [← List.append_assoc]
  cases t with
  | number text =>
    rw [Slips.due_of_start hjuxtaposed] at h
    exact h.append fun f hf => hf _ (Infix.number text)
  | name text =>
    rw [Slips.due_of_start hjuxtaposed] at h
    exact h.append fun f hf => hf _ (Infix.name text)
  | function text =>
    rw [Slips.due_of_start hjuxtaposed] at h
    refine h.append fun f hf a ha => ?_
    rw [List.append_assoc]
    exact hf _ (Infix.bareCall text ha)
  | openParen =>
    rw [Slips.due_of_start hjuxtaposed] at h
    exact h.openGroup
  | percent =>
    rw [Slips.ends_of_need hmissing] at h
    exact h.append fun a ha => Infix.percent ha
  | closeParen =>
    rw [Slips.ends_of_need hmissing] at h
    cases hopening : u.opening with
    | zero =>
      -- Nothing is open, so the missing parenthesis goes to the very front of the row.
      rw [hopening] at h
      have hgroup : Infix (.openParen :: ((List.replicate u.closing .openParen ++ ts) ++
          [.closeParen])) := Infix.group h
      simpa [Unpaired.step, hopening, List.replicate_succ, Nested, Slips.step, Slips.need]
        using hgroup
    | succ depth =>
      rw [hopening] at h
      simpa [Unpaired.step, hopening, Slips.step, Slips.need] using h.closeGroup
  | operator sign =>
    -- A prefix minus goes on a frame, and any other sign makes a frame of an expression.
    by_cases hprefix : sign = '-' ∧ s.afterOperand = false
    · obtain ⟨rfl, hdue⟩ := hprefix
      have hstep : s.step (.operator '-') = s := if_pos ⟨rfl, hdue⟩
      rw [hstep]
      rw [hdue] at h ⊢
      refine h.append fun f hf a ha => ?_
      rw [List.append_assoc]
      exact hf _ (Infix.negate ha)
    · have hstep : s.step (.operator sign) = s.need false := if_neg hprefix
      rw [hstep] at hmissing ⊢
      rw [Slips.ends_of_need hmissing] at h
      refine h.append fun b hb a ha => ?_
      rw [List.append_assoc]
      exact Infix.binary ht hb ha
  | valueOf text => exact ht.elim
  | negate => exact ht.elim

theorem Slips.le_step : s.juxtaposed ≤ (s.step t).juxtaposed ∧ s.missing ≤ (s.step t).missing := by
  cases t with
  | operator sign =>
    simp only [step]
    split
    · exact ⟨Nat.le_refl _, Nat.le_refl _⟩
    · simp only [need]
      split <;> omega
  | _ =>
    simp only [step, start, need]
    split <;> omega

end

theorem reads_foldl {ts : List Token} (hts : ∀ t ∈ ts, t.Readable)
    (hjuxtaposed : (ts.foldl Slips.step {}).juxtaposed = 0)
    (hmissing : (ts.foldl Slips.step {}).missing = 0) :
    Reads (ts.foldl Slips.step {}) (unpaired ts) ts := by
  induction ts using List.reverseRecOn with
  | nil => exact frame_nil
  | append_singleton ts t ih =>
    rw [unpaired, List.foldl_append, List.foldl_append, List.foldl_cons, List.foldl_cons,
      List.foldl_nil, List.foldl_nil]
    rw [List.foldl_append, List.foldl_cons, List.foldl_nil] at hjuxtaposed hmissing
    obtain ⟨hj, hm⟩ := (ts.foldl Slips.step {}).le_step (t := t)
    have hbefore := ih (fun t' ht' => hts t' (List.mem_append_left _ ht')) (by omega) (by omega)
    exact hbefore.step (hts t (by simp)) (by omega) (by omega)

/-- A readable row is an expression, once its missing parentheses are there, exactly when it has
no slips. -/
theorem infix_completed_iff {ts : List Token} (hts : ∀ t ∈ ts, t.Readable) :
    Infix (completed ts) ↔ (slips ts).juxtaposed = 0 ∧ (slips ts).missing = 0 := by
  constructor
  · intro h
    have hfold := h.foldl_slips 0 0
    have hslips : slips (completed ts) = ⟨true, 0, 0⟩ := by
      unfold slips
      rw [hfold]
      rfl
    rw [← slips_completed, hslips]
    exact ⟨rfl, rfl⟩
  · rintro ⟨hjuxtaposed, hmissing⟩
    have hends : (ts.foldl Slips.step {}).afterOperand = true := by
      cases hs : (ts.foldl Slips.step {}).afterOperand with
      | true => rfl
      | false => simp [slips, Slips.need, hs] at hmissing
    have hmissing' : (ts.foldl Slips.step {}).missing = 0 := by
      simpa [slips, Slips.need, hends] using hmissing
    have hreads := reads_foldl hts hjuxtaposed hmissing'
    unfold Reads at hreads
    rw [hends] at hreads
    exact hreads.closeAll

/-! ## What is accepted -/

theorem mem_binarySigns {sign : Char} (h : (Operator.ofSign? sign).isSome = true)
    (hcomma : sign ≠ ',') : sign ∈ binarySigns := by
  simp only [Operator.ofSign?, if_neg hcomma] at h
  split_ifs at h
  all_goals simp_all [binarySigns]

theorem known_number {text : String} (h : (Token.number text).Typed) :
    (Token.number text).Known := by
  obtain ⟨n, hn, htext⟩ := h
  have hnumber := Double.ofText?_text hn
  rw [htext, String.ofList_toList] at hnumber
  simp [Token.Known, hnumber]

/-- A row that has a value has as many operands too many as too few, and is an expression when it
lacks none. When the numbers differ it has no value, and with known signs and functions it is
malformed. -/
theorem only_slips_of_both_kinds_are_accepted (env : Environment) (text : String)
    (hcomma : .operator ',' ∉ tokenize text) :
    (∀ v, evaluatePostfix env (toPostfix (tokenize text)) = .ok v →
      (slips (tokenize text)).juxtaposed = (slips (tokenize text)).missing ∧
        (Infix (completed (tokenize text)) ↔ (slips (tokenize text)).missing = 0)) ∧
    ((slips (tokenize text)).juxtaposed ≠ (slips (tokenize text)).missing →
      (∀ sign, .operator sign ∈ tokenize text → (Operator.ofSign? sign).isSome) →
      (∀ name, .function name ∈ tokenize text → (NamedFunction.ofName? name).isSome) →
      evaluatePostfix env (toPostfix (tokenize text)) = .error .malformed) := by
  have htyped : ∀ t ∈ tokenize text, t.Typed := Token.typed_scan text.toList
  refine ⟨fun v hv => ?_, fun hne hsigns hnames => ?_⟩
  · have hbalance := juxtaposed_eq_missing hcomma hv
    have hreadable : ∀ t ∈ tokenize text, t.Readable := by
      intro t ht
      cases t with
      | operator sign =>
        exact mem_binarySigns (known_sign hv ht) fun heq => hcomma (heq ▸ ht)
      | valueOf name => exact htyped _ ht
      | negate => exact htyped _ ht
      | _ => trivial
    refine ⟨hbalance, (infix_completed_iff hreadable).trans ?_⟩
    rw [hbalance, and_self]
  · have hknown : ∀ t ∈ tokenize text, t.Known := by
      intro t ht
      cases t with
      | number digits => exact known_number (htyped _ ht)
      | operator sign => exact hsigns sign ht
      | function name => exact hnames name ht
      | _ => trivial
    cases hvalue : evaluatePostfix env (toPostfix (tokenize text)) with
    | ok v => exact absurd (juxtaposed_eq_missing hcomma hvalue) hne
    | error cause => rw [error_toPostfix hknown hvalue]

theorem an_open_group_is_accepted_and_a_lone_sum_is_not :
    (evaluatePostfix {} (toPostfix (tokenize "(2+3")) = .ok 5 ∧
        Infix (completed (tokenize "(2+3"))) ∧
      evaluatePostfix {} (toPostfix (tokenize "2+")) = .error .malformed := by
  have hvalue : evaluatePostfix {} (toPostfix (tokenize "(2+3")) = .ok 5 := by decide +kernel
  have hgroup := (only_slips_of_both_kinds_are_accepted {} "(2+3" (by decide +kernel)).1 5 hvalue
  have hsum : tokenize "2+" = [.number "2", .operator '+'] := by decide +kernel
  refine ⟨⟨hvalue, hgroup.2.mpr (by decide +kernel)⟩, ?_⟩
  refine (only_slips_of_both_kinds_are_accepted {} "2+" (by decide +kernel)).2
    (by decide +kernel) ?_ ?_
  · intro sign hsign
    rw [hsum] at hsign
    have hplus : sign = '+' := by simpa using hsign
    rw [hplus]
    rfl
  · intro name hname
    rw [hsum] at hname
    simp at hname

/-- Two slips that make up for each other: a group right after a number, and no operand after
`+`. -/
theorem slips_can_make_up_for_each_other :
    .operator ',' ∉ tokenize "2(3)+" ∧
      evaluatePostfix {} (toPostfix (tokenize "2(3)+")) = .ok 5 ∧
      ¬ Infix (completed (tokenize "2(3)+")) := by
  refine ⟨by decide +kernel, by decide +kernel, fun h => ?_⟩
  have hfold := h.foldl_slips 0 0
  have hslips : (completed (tokenize "2(3)+")).foldl Slips.step {} ≠ ⟨true, 0, 0⟩ := by
    decide +kernel
  exact hslips hfold

end Calculator
