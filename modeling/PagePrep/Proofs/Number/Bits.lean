import Mathlib
import PagePrep.Number.Layout

-- A floating-point number is its stored bits: a sign, and a magnitude that says whether it is
-- finite, infinite or no number.

namespace PagePrep

open Float.Model Float.Model.UnpackedFloat

section Format

variable {spec : Format} {b : BitVec spec.numBits}

theorem toNat_unpackMantissa :
    (unpackMantissa b).toNat = b.toNat % 2 ^ spec.mantissaBitsWithoutImplicit := by
  have hm := spec.hm
  have hw : spec.mantissaBitsWithoutImplicit - 1 - 0 + 1 = spec.mantissaBitsWithoutImplicit := by
    omega
  rw [unpackMantissa, BitVec.toNat_cast, BitVec.extractLsb_toNat, Nat.shiftRight_zero, hw]

theorem toNat_unpackExponent :
    (unpackExponent b).toNat =
      b.toNat / 2 ^ spec.mantissaBitsWithoutImplicit % 2 ^ spec.exponentBits := by
  have he := spec.he
  have hw : spec.mantissaBitsWithoutImplicit + spec.exponentBits - 1 -
      spec.mantissaBitsWithoutImplicit + 1 = spec.exponentBits := by
    omega
  rw [unpackExponent, BitVec.toNat_cast, BitVec.extractLsb_toNat, Nat.shiftRight_eq_div_pow, hw]

theorem toNat_unpackSign :
    (unpackSign b).toNat =
      b.toNat / 2 ^ (spec.mantissaBitsWithoutImplicit + spec.exponentBits) % 2 := by
  rw [unpackSign, BitVec.toNat_cast, BitVec.extractLsb_toNat, Nat.shiftRight_eq_div_pow,
    Nat.sub_self, Nat.zero_add, Nat.pow_one]

-- The bits without the sign.
theorem toNat_mod_eq :
    b.toNat % 2 ^ (spec.mantissaBitsWithoutImplicit + spec.exponentBits) =
      (unpackExponent b).toNat * 2 ^ spec.mantissaBitsWithoutImplicit +
        (unpackMantissa b).toNat := by
  rw [toNat_unpackExponent, toNat_unpackMantissa, pow_add, Nat.mod_mul]
  ring

theorem toBitVec_ofBitVec (v : BitVec 1) : (Sign.ofBitVec v).toBitVec = v := by
  obtain rfl | rfl : v = 0#1 ∨ v = 1#1 := by
    have := v.isLt
    simp only [← BitVec.toNat_inj, BitVec.toNat_ofNat]
    omega
  · rfl
  · rfl

theorem packComponents_unpack {e : BitVec spec.exponentBits}
    {m : BitVec spec.mantissaBitsWithoutImplicit} (he : unpackExponent b = e)
    (hm : unpackMantissa b = m) :
    packComponents spec (Sign.ofBitVec (unpackSign b)) e m = b := by
  subst he hm
  have hlt : b.toNat < 2 * 2 ^ (spec.mantissaBitsWithoutImplicit + spec.exponentBits) := by
    have hlt : b.toNat < 2 ^ (1 + spec.exponentBits + spec.mantissaBitsWithoutImplicit) := b.isLt
    rwa [Nat.add_assoc, Nat.add_comm spec.exponentBits, pow_add, Nat.pow_one] at hlt
  have hm := (unpackMantissa b).isLt
  have he := (unpackExponent b).isLt
  have hs : b.toNat / 2 ^ (spec.mantissaBitsWithoutImplicit + spec.exponentBits) < 2 :=
    (Nat.div_lt_iff_lt_mul (Nat.two_pow_pos _)).mpr hlt
  refine BitVec.toNat_inj.mp ?_
  rw [packComponents, toBitVec_ofBitVec, BitVec.toNat_append, BitVec.toNat_append,
    ← Nat.shiftLeft_add_eq_or_of_lt he, ← Nat.shiftLeft_add_eq_or_of_lt hm, toNat_unpackSign,
    Nat.mod_eq_of_lt hs, Nat.shiftLeft_eq, Nat.shiftLeft_eq, add_mul, Nat.add_assoc,
    ← toNat_mod_eq, Nat.mul_assoc, ← pow_add, Nat.add_comm spec.exponentBits]
  exact Nat.div_add_mod' ..

-- The bit in front of the mantissa is not stored.
section Implicit

variable {w : Nat} {m : BitVec w}

theorem toNat_one_append : (1#1 ++ m).toNat = 2 ^ w + m.toNat := by
  rw [BitVec.toNat_append, ← Nat.shiftLeft_add_eq_or_of_lt m.isLt, BitVec.toNat_ofNat,
    Nat.shiftLeft_eq]
  simp

theorem log2_one_append : (1#1 ++ m).toNat.log2 = w := by
  have hm := m.isLt
  rw [toNat_one_append, Nat.log2_eq_iff (by positivity)]
  constructor
  · exact Nat.le_add_right ..
  · rw [pow_succ]
    omega

theorem ofNat_one_append : BitVec.ofNat w (1#1 ++ m).toNat = m := by
  rw [toNat_one_append, ← BitVec.toNat_inj, BitVec.toNat_ofNat, Nat.add_mod_left,
    Nat.mod_eq_of_lt m.isLt]

end Implicit

variable (h : 1 < spec.exponentBits)
include h

-- Only the bits of a number other than the one kept for what is no number are lost.
theorem pack_unpack (hv : spec.Valid b) :
    UnpackedFloat.pack spec (UnpackedFloat.unpack spec b) = b := by
  have hm := (unpackMantissa b).isLt
  have he := (unpackExponent b).isLt
  rw [UnpackedFloat.unpack]
  split
  case isTrue hexp =>
    split
    case isTrue hman  => exact packComponents_unpack hexp hman
    case isFalse hman => exact (hv.eq_packedNaN hexp hman).symm
  case isFalse hexp =>
    have hexp : (unpackExponent b).toNat + 1 < 2 ^ spec.exponentBits := by
      rw [← BitVec.toNat_inj, BitVec.neg_one_eq_allOnes, BitVec.toNat_allOnes] at hexp
      omega
    have hsize : 2 * 2 ≤ 2 ^ spec.exponentBits := Nat.pow_le_pow_right Nat.two_pos h
    split
    case isTrue hzero =>
      split
      case isTrue hman => exact packComponents_unpack hzero hman
      case isFalse hman =>
        have hpos : (unpackMantissa b).toNat ≠ 0 := by
          rwa [← BitVec.toNat_inj, BitVec.toNat_ofNat, Nat.zero_mod] at hman
        have hlog := (Nat.log2_lt hpos).mpr hm
        have hz : (unpackExponent b).toNat = 0 := by rw [hzero]; rfl
        rw [UnpackedFloat.pack, if_neg (by omega), if_neg (by rw [Format.mantissaBits]; omega),
          BitVec.ofNat_toNat, BitVec.setWidth_eq]
        exact packComponents_unpack hzero rfl
    case isFalse hzero =>
      have hexp' : ((unpackExponent b).toNat - (spec.exponentBias +
          spec.mantissaBitsWithoutImplicit) + spec.exponentBias +
            spec.mantissaBitsWithoutImplicit : Int).toNat = (unpackExponent b).toNat := by
        omega
      rw [UnpackedFloat.pack, hexp', if_neg (by omega), log2_one_append,
        if_pos (by rw [Format.mantissaBits]; omega), ofNat_one_append, BitVec.ofNat_toNat,
        BitVec.setWidth_eq]
      exact packComponents_unpack rfl rfl

omit h in
theorem toNat_unpackExponent_of_eq (he : unpackExponent b = -BitVec.ofNat _ 1) :
    (unpackExponent b).toNat = 2 ^ spec.exponentBits - 1 := by
  rw [he, BitVec.neg_one_eq_allOnes, BitVec.toNat_allOnes]

omit h in
theorem toNat_mod_lt (he : ¬unpackExponent b = -BitVec.ofNat _ 1) :
    b.toNat % 2 ^ (spec.mantissaBitsWithoutImplicit + spec.exponentBits) <
      (2 ^ spec.exponentBits - 1) * 2 ^ spec.mantissaBitsWithoutImplicit := by
  have hm := (unpackMantissa b).isLt
  have hlt := (unpackExponent b).isLt
  rw [← BitVec.toNat_inj, BitVec.neg_one_eq_allOnes, BitVec.toNat_allOnes] at he
  have hle : (unpackExponent b).toNat + 1 ≤ 2 ^ spec.exponentBits - 1 := by omega
  have hmul := Nat.mul_le_mul_right (2 ^ spec.mantissaBitsWithoutImplicit) hle
  rw [Nat.add_mul, Nat.one_mul] at hmul
  rw [toNat_mod_eq]
  omega

omit h in
-- The largest exponent is kept for infinity and, with a mantissa, for what is no number.
theorem isNaN_unpack_iff :
    (UnpackedFloat.unpack spec b).isNaN ↔
      (2 ^ spec.exponentBits - 1) * 2 ^ spec.mantissaBitsWithoutImplicit <
        b.toNat % 2 ^ (spec.mantissaBitsWithoutImplicit + spec.exponentBits) := by
  rw [UnpackedFloat.unpack]
  split
  case isTrue hexp =>
    rw [toNat_mod_eq, toNat_unpackExponent_of_eq hexp]
    split
    case isTrue hman  => simp [hman, UnpackedFloat.isNaN]
    case isFalse hman =>
      rw [← BitVec.toNat_inj, BitVec.toNat_ofNat, Nat.zero_mod] at hman
      simp only [UnpackedFloat.isNaN, true_iff]
      omega
  case isFalse hexp =>
    have hn := Nat.lt_asymm (toNat_mod_lt hexp)
    split
    case isTrue  => split <;> simp [UnpackedFloat.isNaN, hn]
    case isFalse => simp [UnpackedFloat.isNaN, hn]

omit h in
theorem isFinite_unpack_iff :
    (UnpackedFloat.unpack spec b).isFinite ↔
      b.toNat % 2 ^ (spec.mantissaBitsWithoutImplicit + spec.exponentBits) <
        (2 ^ spec.exponentBits - 1) * 2 ^ spec.mantissaBitsWithoutImplicit := by
  rw [UnpackedFloat.unpack]
  split
  case isTrue hexp =>
    rw [toNat_mod_eq, toNat_unpackExponent_of_eq hexp]
    split <;> simp [UnpackedFloat.isFinite]
  case isFalse hexp =>
    have hn := toNat_mod_lt hexp
    split
    case isTrue  => split <;> simp [UnpackedFloat.isFinite, hn]
    case isFalse => simp [UnpackedFloat.isFinite, hn]

omit h in
theorem valid_of_le (hb : b.toNat % 2 ^ (spec.mantissaBitsWithoutImplicit + spec.exponentBits) ≤
    (2 ^ spec.exponentBits - 1) * 2 ^ spec.mantissaBitsWithoutImplicit) : spec.Valid b where
  eq_packedNaN hexp hman := by
    have hn : (UnpackedFloat.unpack spec b).isNaN := by
      rw [UnpackedFloat.unpack, if_pos hexp, if_neg hman]
      rfl
    exact absurd (isNaN_unpack_iff.mp hn) (Nat.not_lt.mpr hb)

end Format

namespace Layout

variable {l : Layout} {negative : Bool} {bits n : Nat}

theorem parts_withSign (h : bits < l.signBit) :
    l.parts (l.withSign negative bits) = (negative, bits) := by
  cases negative
  case false => simp [parts, withSign, Nat.mod_eq_of_lt h, h]
  case true  => simp [parts, withSign, Nat.mod_eq_of_lt h]

theorem withSign_parts (h : n < 2 * l.signBit) : l.withSign (l.parts n).1 (l.parts n).2 = n := by
  by_cases hs : l.signBit ≤ n
  case pos =>
    simp only [parts, withSign, hs, decide_true, if_true]
    rw [Nat.mod_eq_sub_mod hs, Nat.mod_eq_of_lt (by omega)]
    omega
  case neg =>
    simp only [parts, withSign, hs, decide_false]
    exact Nat.mod_eq_of_lt (Nat.not_le.mp hs)

theorem withSign_lt (h : bits < l.signBit) : l.withSign negative bits < 2 * l.signBit := by
  cases negative
  case false => simp only [withSign, Bool.false_eq_true, if_false]; omega
  case true  => simp only [withSign, if_true]; omega

end Layout

section Double

variable {x : Float} {negative : Bool} {bits : Nat}

theorem double_ofBits_toBits (x : Float) : Float.ofBits x.toBits = x := by
  obtain ⟨⟨bits, hv⟩⟩ := x
  simp only [Float.ofBits, Float.Model.ofBits, Float.Model.pack, Float.toBits,
    pack_unpack (by decide) hv]

theorem double_toBits_ofBits {n : UInt64}
    (h : (Layout.double.parts n.toNat).2 ≤ Layout.double.infinity) :
    (Float.ofBits n).toBits = n := by
  have hv : Format.binary64.Valid n.toBitVec := valid_of_le h
  simp only [Float.ofBits, Float.Model.ofBits, Float.Model.pack, Float.toBits,
    pack_unpack (by decide) hv]

theorem double_isNaN_iff : x.isNaN ↔ Layout.double.infinity < (doubleParts x).2 :=
  isNaN_unpack_iff

theorem double_isFinite_iff : x.isFinite ↔ (doubleParts x).2 < Layout.double.infinity :=
  isFinite_unpack_iff

theorem not_isInf_of_isFinite (h : x.isFinite) : ¬x.isInf := by
  have h : x.toModel.unpack.isFinite := h
  show ¬x.toModel.unpack.isInf
  cases hx : x.toModel.unpack
  case infinity => simp [hx, UnpackedFloat.isFinite] at h
  all_goals simp [UnpackedFloat.isInf]

theorem double_ofBits_parts (x : Float) :
    .ofBits (.ofNat (Layout.double.withSign (doubleParts x).1 (doubleParts x).2)) = x := by
  rw [doubleParts, Layout.withSign_parts x.toBits.toNat_lt, UInt64.ofNat_toNat,
    double_ofBits_toBits]

theorem doubleParts_ofBits (h : bits ≤ Layout.double.infinity) :
    doubleParts (.ofBits (.ofNat (Layout.double.withSign negative bits))) = (negative, bits) := by
  have hlt : bits < Layout.double.signBit := Nat.lt_of_le_of_lt h (by decide)
  have hn : (UInt64.ofNat (Layout.double.withSign negative bits)).toNat =
      Layout.double.withSign negative bits := UInt64.toNat_ofNat_of_lt' (Layout.withSign_lt hlt)
  have hp : Layout.double.parts (Layout.double.withSign negative bits) = (negative, bits) :=
    Layout.parts_withSign hlt
  rw [← hn] at hp
  rw [doubleParts, double_toBits_ofBits (by rw [hp]; exact h), hp]

end Double

section Single

variable {x : Float32}

theorem single_ofBits_toBits (x : Float32) : Float32.ofBits x.toBits = x := by
  obtain ⟨⟨bits, hv⟩⟩ := x
  simp only [Float32.ofBits, Float32.Model.ofBits, Float32.Model.pack, Float32.toBits,
    pack_unpack (by decide) hv]

theorem single_isNaN_iff : x.isNaN ↔ Layout.single.infinity < (singleParts x).2 :=
  isNaN_unpack_iff

theorem single_isFinite_iff : x.isFinite ↔ (singleParts x).2 < Layout.single.infinity :=
  isFinite_unpack_iff

theorem single_ofBits_parts (x : Float32) :
    .ofBits (.ofNat (Layout.single.withSign (singleParts x).1 (singleParts x).2)) = x := by
  rw [singleParts, Layout.withSign_parts x.toBits.toNat_lt, UInt32.ofNat_toNat,
    single_ofBits_toBits]

end Single

end PagePrep
