-- Sums and differences of doubles. When a finite double is added to a double
-- that is some number, or subtracted from it, the result is some number too:
-- no number comes only of two infinities.
import Calculator.Proofs.DoubleBits

namespace Calculator

namespace Double

open Float.Model Float.Model.UnpackedFloat

/-! ## Parts put together -/

theorem isNaN_unpack_pack (u : UnpackedFloat) :
    (unpack layout (pack layout u)).isNaN = u.isNaN := by
  by_cases hu : u = .notANumber
  · rw [hu]
    rfl
  · rcases exists_fields u with h | ⟨s, e, m, hnumber, hpack, -⟩
    · exact absurd h hu
    · have hparts : (parts s e m).isNaN = false := by
        rw [parts_eq]
        unfold IsNaN at hnumber
        by_cases he : e = -1#11
        · have hm : m = 0#52 := by
            by_contra hm
            exact hnumber ⟨he, hm⟩
          rw [if_pos he, if_pos hm]
          rfl
        · rw [if_neg he]
          split
          · split <;> rfl
          · rfl
      have hkind : u.isNaN = false := by
        cases u with
        | notANumber => exact absurd rfl hu
        | _ => rfl
      rw [hpack, hkind]
      exact hparts

theorem isNaN_ofParts (u : UnpackedFloat) : (ofParts u).isNaN = u.isNaN :=
  isNaN_unpack_pack u

/-! ## Parts added and subtracted -/

theorem isNaN_round (s : Sign) (m : Nat) (x : Int) : (round layout s m x).isNaN = false := by
  unfold UnpackedFloat.round roundWithAccuracy
  simp only
  split <;> rfl

theorem isNaN_normalize (m x : Int) (s : Sign) :
    (UnpackedFloat.normalize layout m x s).isNaN = false := by
  unfold UnpackedFloat.normalize
  split
  · exact isNaN_round _ _ _
  · rfl
  · exact isNaN_round _ _ _

section

variable {u v : UnpackedFloat}

/-- Parts that are some number, and finite parts, have a sum that is some number. -/
theorem isNaN_add_parts (hu : u.isNaN = false) (hv : v.isFinite = true) :
    (UnpackedFloat.add layout u v).isNaN = false := by
  cases v with
  | notANumber => cases hv
  | infinity t => cases hv
  | zero t =>
    cases u with
    | notANumber => cases hu
    | zero s => cases s <;> cases t <;> rfl
    | _ => rfl
  | finite t n y hn =>
    cases u with
    | notANumber => cases hu
    | finite s m x hm => exact isNaN_normalize _ _ _
    | _ => rfl

theorem sub_apply (a : Int) (t : Sign) (b : Int) : a - t.apply b = a + (-t).apply b := by
  cases t with
  | positive => exact Int.sub_eq_add_neg
  | negative => exact Int.sub_neg a b

/-- To subtract is to add with the other sign. -/
theorem sub_parts (u v : UnpackedFloat) :
    UnpackedFloat.sub layout u v = UnpackedFloat.add layout u v.neg := by
  cases u with
  | finite s m x hm =>
    cases v with
    | finite t n y hn =>
      simp only [UnpackedFloat.sub, UnpackedFloat.add, UnpackedFloat.neg, sub_apply]
    | _ => rfl
  | _ => cases v <;> rfl

theorem isFinite_neg (hv : v.isFinite = true) : v.neg.isFinite = true := by
  cases v with
  | notANumber => cases hv
  | infinity t => cases hv
  | _ => rfl

end

/-! ## Floats -/

section

variable {x y : Float}

theorem isNaN_add (hx : x.isNaN = false) (hy : y.isFinite = true) : (x + y).isNaN = false := by
  have hsum : x + y = ofParts (UnpackedFloat.add layout x.toModel.unpack y.toModel.unpack) := rfl
  rw [hsum, isNaN_ofParts]
  exact isNaN_add_parts hx hy

theorem isNaN_sub (hx : x.isNaN = false) (hy : y.isFinite = true) : (x - y).isNaN = false := by
  have hdifference :
      x - y = ofParts (UnpackedFloat.sub layout x.toModel.unpack y.toModel.unpack) := rfl
  rw [hdifference, isNaN_ofParts, sub_parts]
  exact isNaN_add_parts hx (isFinite_neg hy)

end

end Double

end Calculator
