-- Zeros among the sums and differences of doubles. Every double is a whole
-- number of units, and so is a sum before it is rounded, so no sum is rounded
-- to zero. The zero with a minus sign comes out only where it goes in, and any
-- other double stays what it is when zero is added or subtracted.
import Calculator.Proofs.DoubleSums

namespace Calculator

namespace Double

open Float.Model Float.Model.UnpackedFloat

/-! ## Rounding -/

theorem mantissa_shiftRight (em : ExtendedMantissa) (k : Nat) :
    (em >>> k).mantissa = em.mantissa / 2 ^ k := by
  induction k with
  | zero => exact (Nat.div_one _).symm
  | succ k ih =>
    have hstep : em >>> (k + 1) = (em >>> k).shiftRightOne := rfl
    rw [hstep, Nat.pow_succ, ← Nat.div_div_eq_div_mul, ← ih]
    rfl

theorem mantissa_ofMantissaAndAccuracy (m : Nat) (accuracy : Accuracy) :
    (ExtendedMantissa.ofMantissaAndAccuracy m accuracy).mantissa = m := by
  unfold ExtendedMantissa.ofMantissaAndAccuracy
  split <;> rfl

theorem le_roundedMantissa (em : ExtendedMantissa) : em.mantissa ≤ em.roundedMantissa := by
  unfold ExtendedMantissa.roundedMantissa Accuracy.roundToNearestEven
  split <;> omega

theorem targetExponent_eq (t : Int) : layout.targetExponent t = max (t - 53) (-1074) := rfl

section

variable {s : Sign} {m : Nat} {x : Int}

/-- The shift to the exponent that the layout wants drops the bits beyond the width of the mantissa
and no more, so that something is left. -/
theorem shiftToTargetExponent_bounds (hm : 0 < m) (hx : -1074 ≤ x) (accuracy : Accuracy) :
    0 < (shiftToTargetExponent layout m x accuracy).1.mantissa ∧
      (shiftToTargetExponent layout m x accuracy).1.mantissa < 2 ^ 53 ∧
      x ≤ (shiftToTargetExponent layout m x accuracy).2 := by
  obtain ⟨k, hk⟩ : ∃ k, k = (layout.targetExponent (totalExponent m x) - x).toNat := ⟨_, rfl⟩
  have hshift : shiftToTargetExponent layout m x accuracy =
      (ExtendedMantissa.ofMantissaAndAccuracy m accuracy >>> k, x + k) := by rw [hk]; rfl
  rw [targetExponent_eq, totalExponent] at hk
  have hlow : k ≤ m.log2 := by omega
  have hhigh : m.log2 + 1 ≤ k + 53 := by omega
  rw [hshift, mantissa_shiftRight, mantissa_ofMantissaAndAccuracy]
  refine ⟨Nat.div_pos ?_ (Nat.two_pow_pos k), ?_, by omega⟩
  · calc 2 ^ k ≤ 2 ^ m.log2 := Nat.pow_le_pow_right (by decide) hlow
      _ ≤ m := Nat.log2_self_le (Nat.ne_of_gt hm)
  · apply Nat.div_lt_of_lt_mul
    calc m < 2 ^ (m.log2 + 1) := Nat.lt_log2_self
      _ ≤ 2 ^ (k + 53) := Nat.pow_le_pow_right (by decide) hhigh
      _ = 2 ^ k * 2 ^ 53 := Nat.pow_add 2 k 53

/-- What is not zero, in units, is not rounded to zero. -/
theorem exists_round (hm : 0 < m) (hx : -1074 ≤ x) (s : Sign) :
    ∃ m' x' h, round layout s m x = .finite s m' x' h ∧ m' < 2 ^ 53 ∧ -1074 ≤ x' := by
  obtain ⟨n, y, hn, hy, hround⟩ : ∃ n y, 0 < n ∧ -1074 ≤ y ∧
      round layout s m x = roundWithAccuracy layout s n y .exact := by
    refine ⟨_, _, ?_, ?_, rfl⟩
    · rw [Nat.shiftLeft_eq]
      exact Nat.mul_pos hm (Nat.two_pow_pos _)
    · rw [targetExponent_eq]
      omega
  obtain ⟨hfirst, -, hplace⟩ := shiftToTargetExponent_bounds hn hy .exact
  have hrounded := Nat.lt_of_lt_of_le hfirst (le_roundedMantissa _)
  have hbottom := Int.le_trans hy hplace
  obtain ⟨hpos, hlt, hplace'⟩ := shiftToTargetExponent_bounds hrounded hbottom .exact
  refine ⟨_, _, hpos, ?_, hlt, Int.le_trans hbottom hplace'⟩
  rw [hround]
  exact dif_neg (Nat.ne_of_gt hpos)

end

/-! ## The parts of doubles -/

/-- Parts that some double has: what is finite is a whole number of units, and its mantissa is not
too wide. -/
def Fits : UnpackedFloat → Prop
  | .finite _ m x _ => m < 2 ^ 53 ∧ -1074 ≤ x
  | _ => True

theorem fits_round {m : Nat} {x : Int} (hm : 0 < m) (hx : -1074 ≤ x) (s : Sign) :
    Fits (round layout s m x) ∧ ∀ t, round layout s m x ≠ .zero t := by
  obtain ⟨m', x', h, hround, hwidth, hplace⟩ := exists_round hm hx s
  rw [hround]
  exact ⟨⟨hwidth, hplace⟩, fun t heq => by cases heq⟩

theorem fits_unpack (b : BitVec layout.numBits) : Fits (unpack layout b) := by
  have hm : (unpackMantissa b).toNat < 2 ^ 52 := (unpackMantissa b).isLt
  rw [unpack_eq_parts, parts_eq]
  split
  · split <;> trivial
  · split
    · split
      · trivial
      · exact ⟨by omega, by omega⟩
    · rename_i htop hlow
      have hpos : 0 < (unpackExponent b).toNat :=
        Nat.pos_of_ne_zero fun hzero => hlow (BitVec.eq_of_toNat_eq hzero)
      exact ⟨by omega, by omega⟩

theorem Fits.neg {u : UnpackedFloat} (h : Fits u) : Fits u.neg := by
  cases u <;> exact h

theorem eq_zero_of_pack {u : UnpackedFloat} {t : Sign} (h : Fits u)
    (hpack : pack layout u = packedZero layout t) : u = .zero t := by
  have hfields : ∀ {s : Sign} {e : BitVec 11} {m : BitVec 52},
      packComponents layout s e m = packedZero layout t → s = t ∧ e = 0#11 ∧ m = 0#52 := by
    intro s e m heq
    have hsign := congrArg unpackSign heq
    have hexponent := congrArg unpackExponent heq
    have hmantissa := congrArg unpackMantissa heq
    rw [packedZero, unpackSign_packComponents, unpackSign_packComponents] at hsign
    rw [packedZero, unpackExponent_packComponents, unpackExponent_packComponents] at hexponent
    rw [packedZero, unpackMantissa_packComponents, unpackMantissa_packComponents] at hmantissa
    refine ⟨?_, hexponent, hmantissa⟩
    rw [← Sign.ofBitVec_toBitVec s, hsign, Sign.ofBitVec_toBitVec]
  cases u with
  | notANumber => exact absurd (hfields hpack).2.1 (by decide)
  | infinity s => exact absurd (hfields hpack).2.1 (by decide)
  | zero s => rw [(hfields hpack).1]
  | finite s m x hm =>
    obtain ⟨hwidth, hplace⟩ := h
    rw [pack_finite] at hpack
    split at hpack
    · exact absurd (hfields hpack).2.1 (by decide)
    · rename_i hsize
      split at hpack
      · -- A full mantissa has an exponent of its own.
        have hexponent := congrArg BitVec.toNat (hfields hpack).2.1
        rw [BitVec.toNat_ofNat, Nat.mod_eq_of_lt (by omega)] at hexponent
        change _ = 0 at hexponent
        omega
      · rename_i hshort
        have hlog : m.log2 < 53 := (Nat.log2_lt (Nat.ne_of_gt hm)).mpr hwidth
        have hlt : m < 2 ^ 52 := (Nat.log2_lt (Nat.ne_of_gt hm)).mp (by omega)
        have hmantissa := congrArg BitVec.toNat (hfields hpack).2.2
        rw [BitVec.toNat_ofNat, Nat.mod_eq_of_lt hlt] at hmantissa
        change _ = 0 at hmantissa
        omega

/-! ## Sums of parts -/

section

variable {u v : UnpackedFloat}

theorem normalize_ne_zero {m x : Int} (hx : -1074 ≤ x) :
    Fits (UnpackedFloat.normalize layout m x .positive) ∧
      UnpackedFloat.normalize layout m x .positive ≠ .zero .negative := by
  unfold UnpackedFloat.normalize
  split
  · rename_i hneg
    have hlt := Int.compare_eq_lt.mp hneg
    have hround := fits_round (m := (-m).toNat) (by omega) hx .negative
    exact ⟨hround.1, hround.2 .negative⟩
  · exact ⟨trivial, fun heq => by cases heq⟩
  · rename_i hpos
    have hlt := Int.compare_eq_gt.mp hpos
    have hround := fits_round (m := m.toNat) (by omega) hx .positive
    exact ⟨hround.1, hround.2 .negative⟩

/-- A sum is the zero with a minus sign only when both numbers are. -/
theorem add_parts_ne_zero (hu : Fits u) (hv : Fits v) (hne : u ≠ .zero .negative) :
    Fits (UnpackedFloat.add layout u v) ∧ UnpackedFloat.add layout u v ≠ .zero .negative := by
  cases u with
  | notANumber => exact ⟨trivial, fun heq => by cases heq⟩
  | infinity s =>
    cases v with
    | infinity t =>
      simp only [UnpackedFloat.add]
      split
      · exact ⟨trivial, fun heq => by cases heq⟩
      · exact ⟨trivial, fun heq => by cases heq⟩
    | _ => exact ⟨trivial, fun heq => by cases heq⟩
  | zero s =>
    cases s with
    | negative => exact absurd rfl hne
    | positive =>
      cases v with
      | zero t => cases t <;> exact ⟨trivial, fun heq => by cases heq⟩
      | finite t n y hn => exact ⟨hv, fun heq => by cases heq⟩
      | _ => exact ⟨trivial, fun heq => by cases heq⟩
  | finite s m x hm =>
    cases v with
    | finite t n y hn =>
      have hplace : -1074 ≤ min x y := Int.le_min.mpr ⟨hu.2, hv.2⟩
      exact normalize_ne_zero hplace
    | zero t => exact ⟨hu, fun heq => by cases heq⟩
    | _ => exact ⟨trivial, fun heq => by cases heq⟩

theorem add_parts_zero (hne : u ≠ .zero .negative) :
    UnpackedFloat.add layout u (.zero .positive) = u := by
  cases u with
  | zero s =>
    cases s with
    | positive => rfl
    | negative => exact absurd rfl hne
  | _ => rfl

theorem sub_parts_zero (u : UnpackedFloat) : UnpackedFloat.sub layout u (.zero .positive) = u := by
  cases u with
  | zero s => cases s <;> rfl
  | _ => rfl

end

/-! ## Floats -/

section

variable {x : Float}

theorem eq_negZero_iff : x = -0 ↔ x.toModel.unpack = .zero .negative := by
  constructor
  · rintro rfl
    rfl
  · intro h
    have hbits : x.toModel.toBits.toBitVec = packedZero layout .negative :=
      (unpack_eq_zero_iff_of_valid x.toModel.valid).mp h
    apply Float.toBits_inj.mp
    exact UInt64.toBitVec_inj.mp hbits

theorem ofParts_unpack (x : Float) : ofParts x.toModel.unpack = x := by
  have hbits : pack layout x.toModel.unpack = x.toModel.toBits.toBitVec :=
    pack_unpack_of_valid x.toModel.valid
  apply Float.toBits_inj.mp
  exact UInt64.toBitVec_inj.mp hbits

theorem ofParts_ne_negZero {u : UnpackedFloat} (h : Fits u ∧ u ≠ .zero .negative) :
    ofParts u ≠ -0 := by
  intro heq
  have hunpack : (ofParts u).toModel.unpack = unpack layout (pack layout u) := rfl
  have hzero := eq_negZero_iff.mp heq
  rw [hunpack, unpack_eq_zero_iff_of_valid valid_pack] at hzero
  exact h.2 (eq_zero_of_pack h.1 hzero)

theorem add_ne_negZero (hx : x ≠ -0) (y : Float) : x + y ≠ -0 := by
  have hsum : x + y = ofParts (UnpackedFloat.add layout x.toModel.unpack y.toModel.unpack) := rfl
  rw [hsum]
  exact ofParts_ne_negZero
    (add_parts_ne_zero (fits_unpack _) (fits_unpack _) (mt eq_negZero_iff.mpr hx))

theorem sub_ne_negZero (hx : x ≠ -0) (y : Float) : x - y ≠ -0 := by
  have hdifference :
      x - y = ofParts (UnpackedFloat.sub layout x.toModel.unpack y.toModel.unpack) := rfl
  rw [hdifference, sub_parts]
  exact ofParts_ne_negZero
    (add_parts_ne_zero (fits_unpack _) (fits_unpack _).neg (mt eq_negZero_iff.mpr hx))

theorem add_zero_of_ne (hx : x ≠ -0) : x + 0 = x := by
  have hsum : x + 0 = ofParts (UnpackedFloat.add layout x.toModel.unpack (.zero .positive)) := rfl
  rw [hsum, add_parts_zero (mt eq_negZero_iff.mpr hx), ofParts_unpack]

theorem sub_zero_eq (x : Float) : x - 0 = x := by
  have hdifference :
      x - 0 = ofParts (UnpackedFloat.sub layout x.toModel.unpack (.zero .positive)) := rfl
  rw [hdifference, sub_parts_zero, ofParts_unpack]

end

end Double

end Calculator
