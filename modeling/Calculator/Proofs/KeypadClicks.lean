-- What a key shows is what it types. No two buttons ever show the same text, so a
-- click on the text of a button goes to that button, and a row of clicks that type
-- keys leaves the texts that the clicked keys showed, in their order.
import Mathlib.Data.List.Nodup
import Calculator.Proofs.RegisterHistory
import Calculator.Proofs.ShiftRuns

namespace Calculator

namespace Button

/-- Does a button type a key, or leave the typed text alone? SHIFT, ALPHA, MODE, DRG, M+, M− and =
leave it alone. -/
def typesOrKeeps : Button → Bool
  | key _ => true
  | action _ _ command => command ∈ Registers.keepText
  | random _ _ => false

theorem shown_congr {r s : Registers} (h : r.modifier = s.modifier) (button : Button) :
    button.shown r = button.shown s := by
  cases button with
  | key text => simp only [shown, Registers.label, h]
  | action caption tip command => rfl
  | random caption tip => rfl

end Button

namespace Panel

/-! ## What the buttons show -/

/-- No two buttons show the same text at the same moment. -/
theorem nodup_captions (p : Panel) : p.captions.Nodup := by
  have hall : ∀ m : Modifier, (Keypad.buttons.map (Button.shown { modifier := m })).Nodup := by
    intro m
    cases m <;> decide +kernel
  have hshown : Button.shown p.registers = Button.shown { modifier := p.registers.modifier } :=
    funext (Button.shown_congr rfl)
  rw [captions, hshown]
  exact hall p.registers.modifier

/-- A text is looked up to the one button that shows it. -/
theorem button?_eq_some_iff (p : Panel) {text : String} {button : Button} :
    p.button? text = some button ↔
      button ∈ Keypad.buttons ∧ button.shown p.registers = text := by
  constructor
  · exact fun h => ⟨List.mem_of_find?_eq_some h, by simpa using List.find?_some h⟩
  · rintro ⟨hbutton, rfl⟩
    cases hfound : p.button? (button.shown p.registers) with
    | none =>
      have hnone := List.find?_eq_none.mp hfound button hbutton
      simp at hnone
    | some found =>
      have hshown : found.shown p.registers = button.shown p.registers := by
        simpa using List.find?_some hfound
      rw [List.inj_on_of_nodup_map p.nodup_captions (List.mem_of_find?_eq_some hfound) hbutton
        hshown]

/-! ## One click -/

section

variable (p : Panel) (draw : Draw)

theorem click_of_button? {text : String} {button : Button} (h : p.button? text = some button) :
    p.click draw text = p.press (button.command draw) := by
  simp only [click, h]

theorem click_shown {button : Button} (h : button ∈ Keypad.buttons) :
    p.click draw (button.shown p.registers) = p.press (button.command draw) :=
  p.click_of_button? draw (p.button?_eq_some_iff.mpr ⟨h, rfl⟩)

theorem click_of_not_mem_captions {text : String} (h : text ∉ p.captions) :
    p.click draw text = p := by
  cases hbutton : p.button? text with
  | none => simp only [click, hbutton]
  | some button => exact absurd (List.mem_map.mpr ⟨button, p.button?_eq_some_iff.mp hbutton⟩) h

/-- A click on a key adds what the key shows, and any other click that keeps the typed text adds
nothing. -/
theorem expression_click {text : String}
    (h : ∀ button ∈ p.button? text, button.typesOrKeeps = true) :
    (p.click draw text).registers.expression =
      p.registers.expression ++ (keyShown? (p, text)).getD "" := by
  cases hbutton : p.button? text with
  | none => simp [click, keyShown?, hbutton]
  | some button =>
    have hkeeps := h button hbutton
    rw [p.click_of_button? draw hbutton, registers_press]
    cases button with
    | key key =>
      simp only [keyShown?, hbutton, Option.getD_some]
      exact p.registers.expression_insert key
    | action caption tip command =>
      have hkept := p.registers.expression_perform (of_decide_eq_true hkeeps)
      simpa [keyShown?, hbutton, Button.command] using hkept
    | random caption tip => cases hkeeps

end

/-! ## Runs of clicks -/

theorem expression_clickAll (p : Panel) {clicks : List (Draw × String)}
    (h : ∀ moment ∈ p.clickMoments clicks, ∀ button ∈ moment.1.button? moment.2,
      button.typesOrKeeps = true) :
    (p.clickAll clicks).registers.expression =
      p.registers.expression ++ String.join ((p.clickMoments clicks).filterMap keyShown?) := by
  induction clicks generalizing p with
  | nil => simp [clickAll, clickMoments]
  | cons click rest ih =>
    rw [clickMoments, List.forall_mem_cons] at h
    have hrest : (p.clickAll (click :: rest)).registers.expression =
        (p.click click.1 click.2).registers.expression ++
          String.join (((p.click click.1 click.2).clickMoments rest).filterMap keyShown?) :=
      ih (p.click click.1 click.2) h.2
    rw [hrest, p.expression_click click.1 h.1, clickMoments, List.filterMap_cons]
    cases keyShown? (p, click.2) with
    | none => simp
    | some shown => simp [String.append_assoc]

/-! ## The law -/

/-- A key types what it shows, so a row of clicks leaves what the clicked keys showed. A click goes
to the button that shows its text, and changes nothing when there is none. -/
theorem a_key_types_what_it_shows :
    (∀ (p : Panel) (key : String), (p.press (.insert key)).registers.expression =
        p.registers.expression ++ p.registers.label key) ∧
      (∀ clicks : List (Draw × String),
        (∀ moment ∈ clickMoments {} clicks, ∀ button ∈ moment.1.button? moment.2,
          button.typesOrKeeps = true) →
        (clickAll {} clicks).registers.expression =
          String.join ((clickMoments {} clicks).filterMap keyShown?)) ∧
      ∀ (p : Panel) (draw : Draw),
        (∀ button ∈ Keypad.buttons,
          p.click draw (button.shown p.registers) = p.press (button.command draw)) ∧
        ∀ text, text ∉ p.captions → p.click draw text = p := by
  refine ⟨fun p key => p.registers.expression_insert key, fun clicks h => ?_, fun p draw => ?_⟩
  · have hrun := expression_clickAll {} h
    rw [String.empty_append] at hrun
    exact hrun
  · exact ⟨fun button hbutton => p.click_shown draw hbutton,
      fun text htext => p.click_of_not_mem_captions draw htext⟩

/-- While SHIFT is pending the sine is shown nowhere, and a click on what its key shows uses SHIFT
up for the cosine. -/
theorem a_click_on_an_alternative_reaches_its_key :
    let draw : Draw := default
    let first := [(draw, "7"), (draw, "="), (draw, "M+"), (draw, "SHIFT"), (draw, "×")]
    let clicks := first ++ [(draw, "sin("), (draw, "asin("), (draw, "cos(")]
    let p := clickAll {} first
    (∀ moment ∈ clickMoments {} clicks, ∀ button ∈ moment.1.button? moment.2,
        button.typesOrKeeps = true) ∧
      (clickAll {} clicks).registers.expression = "7×asin(cos(" ∧
      (p.press (.insert "sin(")).registers.expression =
        p.registers.expression ++ p.registers.label "sin(" ∧
      Button.key "sin(" ∈ Keypad.buttons ∧
      p.click draw ((Button.key "sin(").shown p.registers) =
        p.press ((Button.key "sin(").command draw) ∧
      "sin(" ∉ p.captions ∧ p.click draw "sin(" = p := by
  intro draw first clicks p
  have hkeeps : ∀ moment ∈ clickMoments {} clicks, ∀ button ∈ moment.1.button? moment.2,
      button.typesOrKeeps = true := by decide +kernel
  have hkey : Button.key "sin(" ∈ Keypad.buttons := by decide
  have hdead : "sin(" ∉ p.captions := by decide +kernel
  obtain ⟨htyped, hrun, hclick⟩ := a_key_types_what_it_shows
  refine ⟨hkeeps, (hrun clicks hkeeps).trans (by decide +kernel), htyped p "sin(", hkey,
    (hclick p draw).1 (.key "sin(") hkey, hdead, (hclick p draw).2 "sin(" hdead⟩

end Panel

end Calculator
