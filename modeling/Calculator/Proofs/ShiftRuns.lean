-- SHIFT serves one key. Once it is pending, it stays so through any commands
-- but SHIFT and ALPHA, until a key is typed that has an alternative. That key
-- types its alternative, and every key before and after it types its own text.
-- So a run has no more keys that type an alternative than presses of SHIFT.
import Calculator.Proofs.RegisterBounds

namespace Calculator

/-- What a command types while SHIFT is pending, if that is something else than its own key. -/
def Command.alternative? : Command → Option String
  | .insert key => shiftAlternative? key
  | _ => none

theorem shiftAlternative?_ne {key alternative : String}
    (h : shiftAlternative? key = some alternative) : alternative ≠ key := by
  obtain ⟨entry, hfind, rfl⟩ := Option.map_eq_some_iff.mp h
  have hkey : entry.1 = key := by simpa using List.find?_some hfind
  have hall : ∀ entry ∈ shiftAlternatives, entry.2 ≠ entry.1 := by decide
  rw [← hkey]
  exact hall entry (List.mem_of_find?_eq_some hfind)

theorem Modifier.flags_shift (m : Modifier) : m.flags.shift = true ↔ m = .shift := by
  cases m <;> decide

namespace Registers

/-- Does a command at its moment type something else than its own key? -/
def typesOther : Registers × Command → Bool
  | (r, .insert key) => (r.insert key).expression ≠ r.expression ++ key
  | _ => false

/-- How many keys can still type their alternative before SHIFT is pressed again. -/
def keysLeft (r : Registers) : Nat := if r.modifier = .shift then 1 else 0

/-! ## One command -/

section

variable (r : Registers)

/-- A key types what it shows. -/
theorem expression_insert (key : String) :
    (r.insert key).expression = r.expression ++ r.label key := by
  unfold insert label
  split
  · cases shiftAlternative? key <;> rfl
  · rfl

theorem label_of_pending (h : r.modifier = .shift) (key : String) :
    r.label key = (shiftAlternative? key).getD key := if_pos h

theorem label_of_not_pending (h : r.modifier ≠ .shift) (key : String) : r.label key = key :=
  if_neg h

/-- A command that is neither SHIFT nor ALPHA does not make SHIFT pending, and it uses SHIFT up
exactly when it has an alternative. -/
theorem pending_perform {command : Command} (h : command ≠ .shift ∧ command ≠ .alpha) :
    (r.perform command).1.modifier = .shift ↔
      r.modifier = .shift ∧ command.alternative? = none := by
  rw [← Modifier.flags_shift, flags_perform, ← Modifier.flags_shift]
  cases command with
  | shift => exact absurd rfl h.1
  | alpha => exact absurd rfl h.2
  | insert key =>
    cases halternative : shiftAlternative? key with
    | none => simp [Flags.perform, Command.alternative?, halternative]
    | some alternative =>
      cases hshift : r.modifier.flags.shift with
      | false => simp [Flags.perform, hshift]
      | true => simp [Flags.perform, Command.alternative?, halternative, hshift]
  | _ => simp [Flags.perform, Command.alternative?]

theorem typesOther_iff (command : Command) :
    typesOther (r, command) = true ↔
      r.modifier = .shift ∧ command.alternative?.isSome = true := by
  cases command with
  | insert key =>
    simp only [typesOther, expression_insert, Command.alternative?, decide_eq_true_eq, ne_eq,
      String.append_right_inj]
    by_cases hshift : r.modifier = .shift
    · rw [r.label_of_pending hshift]
      cases halternative : shiftAlternative? key with
      | none => simp
      | some alternative => simp [hshift, shiftAlternative?_ne halternative]
    · simp [r.label_of_not_pending hshift, hshift]
  | _ => simp [typesOther, Command.alternative?]

theorem keysLeft_le_one : r.keysLeft ≤ 1 := by
  unfold keysLeft
  split <;> decide

/-- Without SHIFT and ALPHA, a key that types its alternative takes the one that was left, and
nothing else does. -/
theorem keysLeft_perform_quiet {command : Command} (h : command ≠ .shift ∧ command ≠ .alpha) :
    (typesOther (r, command)).toNat + keysLeft (r.perform command).1 = r.keysLeft := by
  have hpending := r.pending_perform h
  have htypes := r.typesOther_iff command
  unfold keysLeft
  by_cases hnow : r.modifier = .shift
  · cases halternative : command.alternative? with
    | none =>
      have hown : typesOther (r, command) = false := by simpa [halternative] using htypes
      simp [hown, hpending, hnow, halternative]
    | some alternative =>
      have hother : typesOther (r, command) = true := by simp [htypes, hnow, halternative]
      simp [hother, hpending, hnow, halternative]
  · have hown : typesOther (r, command) = false := by simpa [hnow] using htypes
    simp [hown, hpending, hnow]

theorem keysLeft_perform (command : Command) :
    (typesOther (r, command)).toNat + keysLeft (r.perform command).1 ≤
      (if command = .shift then 1 else 0) + r.keysLeft := by
  by_cases hshift : command = .shift
  · have hone := keysLeft_le_one (r.perform command).1
    subst hshift
    simp only [typesOther, Bool.toNat_false, if_true]
    omega
  · by_cases halpha : command = .alpha
    · have hnone : (r.perform .alpha).1.modifier ≠ .shift := by
        simp only [perform]
        cases r.modifier <;> decide
      subst halpha
      simp [typesOther, keysLeft, hnone]
    · rw [if_neg hshift, Nat.zero_add, r.keysLeft_perform_quiet ⟨hshift, halpha⟩]

end

/-! ## Runs of commands -/

theorem pending_performAll (r : Registers) {commands : List Command}
    (h : ∀ command ∈ commands, command ≠ .shift ∧ command ≠ .alpha) :
    (r.performAll commands).modifier = .shift ↔
      r.modifier = .shift ∧ ∀ command ∈ commands, command.alternative? = none := by
  induction commands generalizing r with
  | nil => simp
  | cons command rest ih =>
    rw [List.forall_mem_cons] at h
    rw [performAll_cons, ih _ h.2, r.pending_perform h.1, List.forall_mem_cons, and_assoc]

theorem countP_typesOther_le (r : Registers) (commands : List Command) :
    (r.moments commands).countP typesOther + (r.performAll commands).keysLeft ≤
      commands.count .shift + r.keysLeft := by
  induction commands generalizing r with
  | nil => simp [moments]
  | cons command rest ih =>
    have hstep := r.keysLeft_perform command
    have hrest := ih (r.perform command).1
    rw [moments, List.countP_cons, performAll_cons, List.count_cons]
    simp only [beq_iff_eq]
    cases htypes : typesOther (r, command) with
    | false =>
      simp only [htypes, Bool.toNat_false] at hstep
      simp only [Bool.false_eq_true, if_false]
      omega
    | true =>
      simp only [htypes, Bool.toNat_true] at hstep
      simp only [if_true]
      omega

/-! ## The law -/

/-- While SHIFT is pending, the first key that has an alternative types it, and every other key
types its own text. So a run has no more alternatives than presses of SHIFT. -/
theorem shift_serves_the_first_key_that_has_an_alternative :
    (∀ (r : Registers) (commands : List Command), r.modifier = .shift →
      (∀ command ∈ commands, command ≠ .shift ∧ command ≠ .alpha) →
      let now := r.performAll commands
      let unused := ∀ key, .insert key ∈ commands → shiftAlternative? key = none
      (now.modifier = .shift ↔ unused) ∧
        ∀ key, (unused → (now.insert key).expression =
              now.expression ++ (shiftAlternative? key).getD key) ∧
            (¬ unused → (now.insert key).expression = now.expression ++ key)) ∧
    ∀ commands, ((moments {} commands).filter typesOther).length ≤ commands.count .shift := by
  refine ⟨fun r commands hshift hquiet => ?_, fun commands => ?_⟩
  · intro now unused
    have hunused : unused ↔ ∀ command ∈ commands, command.alternative? = none := by
      constructor
      · intro h command hcommand
        cases command with
        | insert key => exact h key hcommand
        | _ => rfl
      · exact fun h key hkey => h (.insert key) hkey
    have hpending : now.modifier = .shift ↔ unused := by
      rw [hunused, r.pending_performAll hquiet]
      exact and_iff_right hshift
    refine ⟨hpending, fun key => ⟨fun h => ?_, fun h => ?_⟩⟩
    · rw [now.expression_insert, now.label_of_pending (hpending.mpr h)]
    · rw [now.expression_insert, now.label_of_not_pending (mt hpending.mp h)]
  · have hrun := countP_typesOther_le {} commands
    have hstart : keysLeft {} = 0 := rfl
    rw [← List.countP_eq_length_filter]
    omega

/-- A digit and a recalled answer leave SHIFT pending for the logarithm, which uses it up for the
sine. -/
theorem shift_waits_for_the_logarithm :
    let r := performAll {} [.shift]
    let early := [Command.insert "7", .clear, .recallAnswer]
    let late := early ++ [.insert "log("]
    r.modifier = .shift ∧ (∀ command ∈ late, command ≠ .shift ∧ command ≠ .alpha) ∧
      ((r.performAll early).insert "log(").expression =
        (r.performAll early).expression ++ "10^(" ∧
      ((r.performAll late).insert "sin(").expression =
        (r.performAll late).expression ++ "sin(" := by
  intro r early late
  have hshift : r.modifier = .shift := rfl
  have hquiet : ∀ command ∈ late, command ≠ .shift ∧ command ≠ .alpha := by decide
  have hearly := shift_serves_the_first_key_that_has_an_alternative.1 r early hshift
    fun command hcommand => hquiet command (List.mem_append_left _ hcommand)
  have hlate := shift_serves_the_first_key_that_has_an_alternative.1 r late hshift hquiet
  refine ⟨hshift, hquiet, (hearly.2 "log(").1 ?_, (hlate.2 "sin(").2 ?_⟩
  · intro key hkey
    obtain rfl : key = "7" := by simpa [early] using hkey
    decide
  · intro h
    exact absurd (h "log(" (by simp [late])) (by decide)

end Registers

end Calculator
