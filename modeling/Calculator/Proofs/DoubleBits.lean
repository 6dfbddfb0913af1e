-- The bits of a double: a sign, an exponent and a mantissa. The sign is a field
-- of its own, so a change of sign touches nothing else, and it goes through a
-- division unchanged.
import Mathlib
import Calculator.Double.Ordinal

namespace Calculator

namespace Double

open Float.Model Float.Model.UnpackedFloat

/-- The layout of a double. -/
abbrev layout : Format := Format.binary64

/-! ## The three fields as numbers -/

theorem toNat_unpackExponent (b : BitVec layout.numBits) :
    (unpackExponent b).toNat = b.toNat / 2 ^ 52 % 2 ^ 11 := by
  simp [unpackExponent, BitVec.extractLsb_toNat, Nat.shiftRight_eq_div_pow]

theorem toNat_packComponents (s : Sign) (e : BitVec 11) (m : BitVec 52) :
    (packComponents layout s e m).toNat =
      s.toBitVec.toNat * 2 ^ 63 + e.toNat * 2 ^ 52 + m.toNat := by
  have he := e.isLt
  have hm := m.isLt
  have hpow : 2 ^ 11 * 2 ^ 52 = 2 ^ 63 := rfl
  simp only [packComponents, BitVec.toNat_append]
  rw [← Nat.shiftLeft_add_eq_or_of_lt (by exact hm), ← Nat.shiftLeft_add_eq_or_of_lt (by exact he),
    Nat.shiftLeft_eq, Nat.shiftLeft_eq, Nat.add_mul, Nat.mul_assoc, hpow]

/-! ## Parts and bits -/

/-- The parts of a double with these fields. -/
def parts (s : Sign) (e : BitVec 11) (m : BitVec 52) : UnpackedFloat :=
  unpack layout (packComponents layout s e m)

/-- The fields of no number. -/
def IsNaN (e : BitVec 11) (m : BitVec 52) : Prop := e = -1#11 ∧ m ≠ 0#52

theorem unpack_eq_parts (b : BitVec layout.numBits) :
    unpack layout b =
      parts (Sign.ofBitVec (unpackSign b)) (unpackExponent b) (unpackMantissa b) := by
  rw [parts, packComponents_unpackSign_unpackExponent_unpackMantissa]

theorem toNat_one_append (m : BitVec 52) : (1#1 ++ m).toNat = 2 ^ 52 + m.toNat := by
  rw [BitVec.toNat_append, ← Nat.shiftLeft_add_eq_or_of_lt m.isLt]
  rfl

theorem toNat_pos_of_ne_zero {m : BitVec 52} (h : m ≠ 0#52) : 0 < m.toNat :=
  Nat.pos_of_ne_zero fun hzero => h (BitVec.eq_of_toNat_eq hzero)

/-- The parts, field by field: infinities and what is no number, zeros and the doubles near them,
and all the others, which have one more bit than the mantissa holds. -/
theorem parts_eq (s : Sign) (e : BitVec 11) (m : BitVec 52) :
    parts s e m =
      if e = -1#11 then if m = 0#52 then .infinity s else .notANumber
      else if e = 0#11 then
        if h : m = 0#52 then .zero s
        else .finite s m.toNat (e.toNat - 1075 + 1) (toNat_pos_of_ne_zero h)
      else .finite s (2 ^ 52 + m.toNat) (e.toNat - 1075) (by omega) := by
  unfold parts UnpackedFloat.unpack
  simp only [unpackSign_packComponents, unpackExponent_packComponents,
    unpackMantissa_packComponents, Sign.ofBitVec_toBitVec, toNat_one_append]
  rfl

theorem neg_parts (s : Sign) (e : BitVec 11) (m : BitVec 52) :
    (parts s e m).neg = parts (-s) e m := by
  rw [parts_eq, parts_eq]
  split
  · split <;> rfl
  · split
    · split <;> rfl
    · rfl

theorem pack_finite {s : Sign} {m : Nat} {x : Int} {hm : 0 < m} :
    pack layout (.finite s m x hm) =
      if 2 ^ 11 ≤ (x + 1075).toNat + 1 then packedInfinity layout s
      else if m.log2 = 52 then
        packComponents layout s (BitVec.ofNat 11 (x + 1075).toNat) (BitVec.ofNat 52 m)
      else packComponents layout s 0#11 (BitVec.ofNat 52 m) := by
  have hbias : x + layout.exponentBias + layout.mantissaBitsWithoutImplicit = x + 1075 := by
    have hbias : (layout.exponentBias : Int) = 1023 := rfl
    have hwidth : (layout.mantissaBitsWithoutImplicit : Int) = 52 := rfl
    rw [hbias, hwidth]
    omega
  have hbits : (m.log2 + 1 = layout.mantissaBits) = (m.log2 = 52) := by
    have h : layout.mantissaBits = 53 := rfl
    rw [h]
    simp
  simp only [UnpackedFloat.pack, hbias, hbits]

theorem pack_parts {s : Sign} {e : BitVec 11} {m : BitVec 52} (h : ¬ IsNaN e m) :
    pack layout (parts s e m) = packComponents layout s e m := by
  have hbits : isNaNBits (packComponents layout s e m) = false := by
    simpa [isNaNBits, IsNaN] using h
  rw [parts, pack_unpack, hbits]
  rfl

/-- Whatever is put together has the fields of some number, or it is no number. A change of sign
goes to the sign field. -/
theorem exists_fields (u : UnpackedFloat) : u = .notANumber ∨
    ∃ s e m, ¬ IsNaN e m ∧ pack layout u = packComponents layout s e m ∧
      pack layout u.neg = packComponents layout (-s) e m := by
  cases u with
  | notANumber => exact Or.inl rfl
  | infinity s => exact Or.inr ⟨s, -1#11, 0#52, by simp [IsNaN], rfl, rfl⟩
  | zero s => exact Or.inr ⟨s, 0#11, 0#52, by simp [IsNaN], rfl, rfl⟩
  | finite s m x hm =>
    refine Or.inr ?_
    by_cases hlarge : 2 ^ 11 ≤ (x + 1075).toNat + 1
    · refine ⟨s, -1#11, 0#52, by simp [IsNaN], ?_, ?_⟩
      · rw [pack_finite, if_pos hlarge]
        rfl
      · rw [UnpackedFloat.neg, pack_finite, if_pos hlarge]
        rfl
    · by_cases hlog : m.log2 = 52
      · refine ⟨s, BitVec.ofNat 11 (x + 1075).toNat, BitVec.ofNat 52 m, ?_, ?_, ?_⟩
        · rintro ⟨htop, -⟩
          have := congrArg BitVec.toNat htop
          rw [BitVec.toNat_ofNat, Nat.mod_eq_of_lt (by omega)] at this
          have hall : (-1#11).toNat = 2 ^ 11 - 1 := rfl
          omega
        · rw [pack_finite, if_neg hlarge, if_pos hlog]
        · rw [UnpackedFloat.neg, pack_finite, if_neg hlarge, if_pos hlog]
      · refine ⟨s, 0#11, BitVec.ofNat 52 m, by simp [IsNaN], ?_, ?_⟩
        · rw [pack_finite, if_neg hlarge, if_neg hlog]
        · rw [UnpackedFloat.neg, pack_finite, if_neg hlarge, if_neg hlog]

theorem pack_neg_unpack (u : UnpackedFloat) :
    pack layout (unpack layout (pack layout u)).neg = pack layout u.neg := by
  rcases exists_fields u with rfl | ⟨s, e, m, hnumber, hu, hneg⟩
  · rfl
  · have hparts : unpack layout (packComponents layout s e m) = parts s e m := rfl
    rw [hu, hneg, hparts, neg_parts, pack_parts hnumber]

theorem unpack_pack_neg (b : BitVec layout.numBits) :
    unpack layout (pack layout (unpack layout b).neg) = (unpack layout b).neg := by
  rw [unpack_eq_parts b, neg_parts]
  by_cases hnumber : IsNaN (unpackExponent b) (unpackMantissa b)
  · have hnan : ∀ s, parts s (unpackExponent b) (unpackMantissa b) = .notANumber := by
      intro s
      rw [parts_eq, if_pos hnumber.1, if_neg hnumber.2]
    rw [hnan]
    rfl
  · rw [pack_parts hnumber]
    rfl

/-! ## Floats -/

/-- A double is told by its sign and its ordinal. -/
theorem ofOrdinal_ordinal (x : Float) : ofOrdinal (isNegative x) (ordinal x) = x := by
  have hlt : x.toBits.toNat < 2 ^ 64 := x.toBits.toNat_lt
  have hbits :
      UInt64.ofNat (if isNegative x then 2 ^ 63 + ordinal x else ordinal x) = x.toBits := by
    apply UInt64.toNat.inj
    rw [UInt64.toNat_ofNat']
    unfold isNegative ordinal
    split
    · rename_i h
      simp only [decide_eq_true_eq] at h
      omega
    · rename_i h
      simp only [decide_eq_true_eq] at h
      omega
  rw [ofOrdinal, hbits, Float.ofBits_toBits]

theorem sign_neg_div (s t : Sign) : -s / t = -(s / t) := by
  cases s <;> cases t <;> rfl

theorem neg_roundWithAccuracy (s : Sign) (m : Nat) (x : Int) (accuracy : Accuracy) :
    (roundWithAccuracy layout s m x accuracy).neg = roundWithAccuracy layout (-s) m x accuracy := by
  unfold roundWithAccuracy
  simp only
  split <;> rfl

/-- A sign goes through a division of parts: the size of the quotient does not depend on it. -/
theorem neg_div_parts (u v : UnpackedFloat) :
    UnpackedFloat.div layout u.neg v = (UnpackedFloat.div layout u v).neg := by
  cases u with
  | notANumber => rfl
  | infinity s => cases v <;> simp only [UnpackedFloat.neg, UnpackedFloat.div, sign_neg_div]
  | zero s => cases v <;> simp only [UnpackedFloat.neg, UnpackedFloat.div, sign_neg_div]
  | finite s m x hm =>
    cases v with
    | finite t m' x' hm' =>
      simp only [UnpackedFloat.neg, UnpackedFloat.div, sign_neg_div]
      exact (neg_roundWithAccuracy _ _ _ _).symm
    | _ => simp only [UnpackedFloat.neg, UnpackedFloat.div, sign_neg_div]

/-- The float with these parts. -/
def ofParts (u : UnpackedFloat) : Float := .ofModel (Float.Model.pack u)

theorem neg_ofParts (u : UnpackedFloat) : -ofParts u = ofParts u.neg := by
  have h : Float.Model.pack (Float.Model.pack u).unpack.neg = Float.Model.pack u.neg := by
    simp only [Float.Model.pack, Float.Model.unpack, pack_neg_unpack]
  exact congrArg Float.ofModel h

theorem neg_div (a c : Float) : -a / c = -(a / c) := by
  have hneg : (-a).toModel.unpack = a.toModel.unpack.neg := unpack_pack_neg _
  calc -a / c
      = ofParts (UnpackedFloat.div layout (-a).toModel.unpack c.toModel.unpack) := rfl
    _ = ofParts (UnpackedFloat.div layout a.toModel.unpack c.toModel.unpack).neg := by
        rw [hneg, neg_div_parts]
    _ = -ofParts (UnpackedFloat.div layout a.toModel.unpack c.toModel.unpack) :=
        (neg_ofParts _).symm
    _ = -(a / c) := rfl

theorem ofOrdinal_eq_ofParts (negative : Bool) {n : Nat} (h : n < 2 ^ 63) :
    ofOrdinal negative n = ofParts (parts (if negative then .negative else .positive)
      (BitVec.ofNat 11 (n / 2 ^ 52)) (BitVec.ofNat 52 n)) := by
  have hbits : (UInt64.ofNat (if negative then 2 ^ 63 + n else n)).toBitVec =
      packComponents layout (if negative then .negative else .positive)
        (BitVec.ofNat 11 (n / 2 ^ 52)) (BitVec.ofNat 52 n) := by
    apply BitVec.eq_of_toNat_eq
    have hbit : (if negative then Sign.negative else Sign.positive).toBitVec.toNat * 2 ^ 63 + n =
        if negative then 2 ^ 63 + n else n := by
      cases negative with
      | false => exact Nat.zero_add n
      | true => rfl
    rw [toNat_packComponents, UInt64.toNat_toBitVec, UInt64.toNat_ofNat', BitVec.toNat_ofNat,
      BitVec.toNat_ofNat, ← hbit]
    have hsign := (if negative then Sign.negative else Sign.positive).toBitVec.isLt
    omega
  rw [ofOrdinal, Float.ofBits, Float.Model.ofBits, hbits]
  rfl

theorem neg_ofOrdinal {n : Nat} (h : n < 2 ^ 63) : -ofOrdinal false n = ofOrdinal true n := by
  rw [ofOrdinal_eq_ofParts false h, ofOrdinal_eq_ofParts true h, neg_ofParts, neg_parts]
  rfl

theorem neg_ofOrdinal_ordinal {x : Float} (h : isNegative x = true) :
    -ofOrdinal false (ordinal x) = x := by
  have hsize : ordinal x < 2 ^ 63 := Nat.mod_lt _ (Nat.two_pow_pos 63)
  rw [neg_ofOrdinal hsize, ← h, ofOrdinal_ordinal]

/-! ## Finite doubles -/

/-- A finite double is some number, not infinite, and its ordinal is below that of infinity. -/
theorem of_isFinite {x : Float} (h : x.isFinite = true) :
    x.isNaN = false ∧ x.isInf = false ∧ ordinal x < infinityOrdinal := by
  obtain ⟨b, hb⟩ : ∃ b : BitVec layout.numBits, b = x.toBits.toBitVec := ⟨_, rfl⟩
  have hisFinite : (unpack layout b).isFinite = true := by rw [hb]; exact h
  have hbits : b.toNat = x.toBits.toNat := by rw [hb]; rfl
  have hparts := unpack_eq_parts b
  rw [hparts, parts_eq] at hisFinite
  by_cases htop : unpackExponent b = -1#11
  · rw [if_pos htop] at hisFinite
    split at hisFinite <;> cases hisFinite
  · have hne : (unpackExponent b).toNat ≠ 2 ^ 11 - 1 :=
      fun heq => htop (BitVec.eq_of_toNat_eq heq)
    rw [toNat_unpackExponent, hbits] at hne
    rw [parts_eq, if_neg htop] at hparts
    have hkind : (unpack layout b).isNaN = false ∧ (unpack layout b).isInf = false := by
      rw [hparts]
      split
      · split <;> exact ⟨rfl, rfl⟩
      · exact ⟨rfl, rfl⟩
    rw [hb] at hkind
    refine ⟨hkind.1, hkind.2, ?_⟩
    have hlt : x.toBits.toNat < 2 ^ 64 := x.toBits.toNat_lt
    unfold ordinal infinityOrdinal
    omega

theorem isInf_of_not_isFinite {x : Float} (h : x.isFinite = false) (h' : x.isNaN = false) :
    x.isInf = true := by
  have hkinds : ∀ u : UnpackedFloat, u.isFinite = false → u.isNaN = false → u.isInf = true := by
    intro u hfinite hnumber
    cases u with
    | infinity s => rfl
    | notANumber => cases hnumber
    | zero s => cases hfinite
    | finite s m x hm => cases hfinite
  exact hkinds x.toModel.unpack h h'

end Double

end Calculator
