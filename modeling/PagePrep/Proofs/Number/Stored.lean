import Mathlib
import PagePrep.Proofs.Number.Bits
import PagePrep.Proofs.Number.Nearest

-- A number of a format is what its parts are read as. Of two positive numbers the one with the
-- larger bits is the larger one.

namespace PagePrep.Layout

open Float.Model Float.Model.UnpackedFloat

variable {l : Layout} {spec : Format} {m k n j e f bits a b : Nat} {s : Sign} {negative : Bool}

-- The layout says how the numbers of the format are stored.
structure Describes (l : Layout) (spec : Format) : Prop where
  exponentBits : 1 < spec.exponentBits
  whole        : spec.mantissaBitsWithoutImplicit < spec.exponentBias
  precision    : l.precision = spec.mantissaBitsWithoutImplicit + 1
  unit         : l.unit + 1 = spec.exponentBias + spec.mantissaBitsWithoutImplicit
  infinity     : l.infinity = (2 ^ spec.exponentBits - 1) * 2 ^ spec.mantissaBitsWithoutImplicit
  signBit      : l.signBit = 2 ^ (spec.mantissaBitsWithoutImplicit + spec.exponentBits)

theorem describes_single : single.Describes .binary32 :=
  ⟨by decide, by decide, rfl, rfl, rfl, rfl⟩

theorem describes_double : double.Describes .binary64 :=
  ⟨by decide, by decide, rfl, rfl, rfl, rfl⟩

theorem split_normal (he : e ≠ 0) (hf : f < l.half) :
    l.Split (e * l.half + f) (l.half + f) (e - 1) := by
  obtain ⟨e, rfl⟩ := Nat.exists_eq_succ_of_ne_zero he
  have hbits : e.succ * l.half + f = e * l.half + (l.half + f) := by
    rw [Nat.succ_mul, Nat.add_assoc]
  rw [hbits]
  exact .normal (Nat.le_add_right ..) (by omega)

-- The number of `m * 2 ^ k` units.
def ofUnits (l : Layout) (s : Sign) (m k : Nat) : UnpackedFloat :=
  if h : m = 0 then .zero s else .finite s m (k - l.unit) (Nat.pos_of_ne_zero h)

theorem ofUnits_eq {e : Int} (hm : 0 < m) (he : e = k - l.unit) :
    l.ofUnits s m k = .finite s m e hm := by
  subst he
  exact dif_neg (Nat.ne_of_gt hm)

-- The finite number that is stored as `bits`.
def stored (l : Layout) (s : Sign) (bits : Nat) : UnpackedFloat :=
  l.ofUnits s (l.split bits).1 (l.split bits).2

theorem stored_eq (h : l.Split bits m k) : l.stored s bits = l.ofUnits s m k := by
  rw [stored, h.split_eq]

theorem stored_zero : l.stored s 0 = .zero s := by
  have hs : l.Split 0 0 0 := .smallest (Nat.mul_pos Nat.two_pos l.half_pos)
  rw [stored_eq hs]
  rfl

theorem stored_zero_or_finite :
    bits = 0 ∧ l.stored s bits = .zero s ∨ ∃ m e hm, l.stored s bits = .finite s m e hm := by
  obtain ⟨m, k, hs⟩ := l.exists_split bits
  rw [stored_eq hs]
  by_cases hm : m = 0
  case pos =>
    have hk : k = 0 := hs.le_or_eq.resolve_left fun hle => by
      have := l.half_pos
      omega
    exact .inl ⟨by rw [hs.bits_eq, hm, hk, Nat.zero_mul], dif_pos hm⟩
  case neg => exact .inr ⟨_, _, _, dif_neg hm⟩

def signOf (negative : Bool) : Sign :=
  if negative then .negative else .positive

theorem signOf_false : signOf false = .positive :=
  rfl

-- What is stored with these parts.
def ofParts (l : Layout) (negative : Bool) (bits : Nat) : UnpackedFloat :=
  if l.infinity < bits then .notANumber
  else if bits = l.infinity then .infinity (signOf negative)
  else l.stored (signOf negative) bits

theorem ofParts_of_lt (h : bits < l.infinity) :
    l.ofParts negative bits = l.stored (signOf negative) bits := by
  rw [ofParts, if_neg (Nat.lt_asymm h), if_neg (Nat.ne_of_lt h)]

theorem ofParts_infinity : l.ofParts negative l.infinity = .infinity (signOf negative) := by
  rw [ofParts, if_neg (Nat.lt_irrefl _), if_pos rfl]

theorem ofParts_of_gt (h : l.infinity < bits) : l.ofParts negative bits = .notANumber :=
  if_pos h

-- What is read of a result once it has been stored.
def reread (spec : Format) (f : UnpackedFloat) : UnpackedFloat :=
  UnpackedFloat.unpack spec (UnpackedFloat.pack spec f)

section Order

-- Magnitudes are ordered by their exponents first.
theorem lt_or_eq_of_split_lt (ha : l.Split a m k) (hb : l.Split b n j) (h : b < a) :
    j < k ∨ j = k ∧ n < m := by
  have hm := ha.lt
  rw [ha.bits_eq, hb.bits_eq] at h
  obtain hlt | rfl | hlt := Nat.lt_trichotomy j k
  case inl     => exact .inl hlt
  case inr.inl => exact .inr ⟨rfl, Nat.lt_of_add_lt_add_left h⟩
  case inr.inr =>
    have hn := hb.le_or_eq.resolve_right (Nat.ne_zero_of_lt hlt)
    have hmul := Nat.mul_le_mul_right l.half hlt
    rw [Nat.succ_mul] at hmul
    omega

theorem significand_ne_zero (ha : l.Split a m k) (hz : a ≠ 0) : m ≠ 0 := by
  rintro rfl
  have hk := ha.le_or_eq.resolve_left (Nat.not_le.mpr l.half_pos)
  exact hz (by rw [ha.bits_eq, hk, Nat.zero_mul])

-- With a minus the larger magnitude is the smaller number.
theorem compare_stored_of_lt (h : a < b) :
    (l.stored (signOf negative) a).compare (l.stored (signOf negative) b) =
      some (if negative then .gt else .lt) := by
  obtain ⟨m, k, ha⟩ := l.exists_split a
  obtain ⟨n, j, hb⟩ := l.exists_split b
  have hn := significand_ne_zero hb (Nat.ne_zero_of_lt h)
  rw [stored_eq ha, stored_eq hb, ofUnits_eq (Nat.pos_of_ne_zero hn) rfl]
  by_cases hm : m = 0
  case pos => cases negative <;> simp [ofUnits, hm, UnpackedFloat.compare, signOf]
  case neg =>
    have hlt : (compare ((k : Int) - l.unit) (j - l.unit)).then (compare m n) = .lt := by
      cases lt_or_eq_of_split_lt hb ha h
      case inl hlt =>
        have hlt : compare ((k : Int) - l.unit) (j - l.unit) = .lt :=
          Int.compare_eq_lt.mpr (by omega)
        rw [hlt, Ordering.lt_then]
      case inr hlt =>
        obtain ⟨rfl, hlt⟩ := hlt
        have heq : compare ((k : Int) - l.unit) (k - l.unit) = .eq := Int.compare_eq_eq.mpr rfl
        rw [heq, Ordering.eq_then, Nat.compare_eq_lt.mpr hlt]
    rw [ofUnits_eq (Nat.pos_of_ne_zero hm) rfl]
    cases negative <;> simp [UnpackedFloat.compare, signOf, hlt]

theorem compare_stored_self :
    (l.stored (signOf negative) a).compare (l.stored (signOf negative) a) = some .eq := by
  obtain ⟨-, hs⟩ | ⟨m, e, hm, hs⟩ := @stored_zero_or_finite l a (signOf negative)
  all_goals rw [hs]
  case inl => rfl
  case inr => cases negative <;> simp [UnpackedFloat.compare, signOf]

end Order

namespace Describes

variable (h : l.Describes spec)
include h

theorem half_eq : l.half = 2 ^ spec.mantissaBitsWithoutImplicit := by
  rw [half, h.precision, Nat.add_sub_cancel]

theorem infinity_eq : l.infinity = (2 ^ spec.exponentBits - 1) * l.half := by
  rw [h.infinity, h.half_eq]

theorem precision_pos : 0 < l.precision :=
  h.precision ▸ Nat.succ_pos _

theorem infinity_pos : 0 < l.infinity := by
  have hsize : 2 * 2 ≤ 2 ^ spec.exponentBits :=
    Nat.pow_le_pow_right Nat.two_pos h.exponentBits
  exact h.infinity_eq ▸ Nat.mul_pos (by omega) l.half_pos

theorem ofParts_zero : l.ofParts negative 0 = .zero (signOf negative) := by
  rw [ofParts_of_lt h.infinity_pos, stored_zero]

theorem infinity_lt_signBit : l.infinity < l.signBit := by
  have hpos := Nat.two_pow_pos spec.exponentBits
  rw [h.infinity, h.signBit, Nat.add_comm, pow_add]
  exact Nat.mul_lt_mul_of_pos_right (by omega) (Nat.two_pow_pos _)

theorem toNat_lt (b : BitVec spec.numBits) : b.toNat < 2 * l.signBit := by
  have hb : b.toNat < 2 ^ (1 + spec.exponentBits + spec.mantissaBitsWithoutImplicit) := b.isLt
  rwa [h.signBit, ← pow_succ', Nat.add_comm, Nat.add_comm spec.mantissaBitsWithoutImplicit,
    ← Nat.add_assoc]

theorem parts_toNat (b : BitVec spec.numBits) :
    (l.parts b.toNat).2 = (unpackExponent b).toNat * l.half + (unpackMantissa b).toNat := by
  rw [parts, h.signBit, toNat_mod_eq, h.half_eq]

theorem ofBitVec_unpackSign (b : BitVec spec.numBits) :
    Sign.ofBitVec (unpackSign b) = signOf (l.parts b.toNat).1 := by
  have hs : (unpackSign b).toNat = b.toNat / l.signBit % 2 := by rw [toNat_unpackSign, h.signBit]
  have hb := h.toNat_lt b
  have hp : (l.parts b.toNat).1 = decide (l.signBit ≤ b.toNat) := rfl
  rw [hp]
  by_cases hle : l.signBit ≤ b.toNat
  case pos =>
    have hd : b.toNat / l.signBit = 1 := Nat.div_eq_of_lt_le (by omega) (by omega)
    have hv : unpackSign b = 1#1 := BitVec.toNat_inj.mp (hs.trans (by rw [hd]; rfl))
    rw [hv, decide_eq_true hle]
    rfl
  case neg =>
    have hd : b.toNat / l.signBit = 0 := Nat.div_eq_of_lt (by omega)
    have hv : unpackSign b = 0#1 := BitVec.toNat_inj.mp (hs.trans (by rw [hd]; rfl))
    rw [hv, decide_eq_false hle]
    rfl

-- A number is told by its parts.
theorem unpack_eq (b : BitVec spec.numBits) :
    UnpackedFloat.unpack spec b = l.ofParts (l.parts b.toNat).1 (l.parts b.toNat).2 := by
  have hm : (unpackMantissa b).toNat < l.half := h.half_eq ▸ (unpackMantissa b).isLt
  have hlt : (unpackExponent b).toNat < 2 ^ spec.exponentBits := (unpackExponent b).isLt
  have hi := h.infinity_eq
  have hu := h.unit
  rw [UnpackedFloat.unpack, h.ofBitVec_unpackSign, h.parts_toNat]
  generalize (l.parts b.toNat).1 = negative
  split
  case isTrue he =>
    rw [toNat_unpackExponent_of_eq he, ← hi]
    split
    case isTrue hz =>
      rw [hz]
      exact ofParts_infinity.symm
    case isFalse hz =>
      have hz : (unpackMantissa b).toNat ≠ 0 := fun h => hz (BitVec.toNat_inj.mp h)
      exact (ofParts_of_gt (Nat.lt_add_of_pos_right (Nat.pos_of_ne_zero hz))).symm
  case isFalse he =>
    have hbits := toNat_mod_lt he
    rw [← h.signBit, ← h.infinity] at hbits
    have hbits : (unpackExponent b).toNat * l.half + (unpackMantissa b).toNat < l.infinity :=
      h.parts_toNat b ▸ hbits
    rw [ofParts_of_lt hbits]
    split
    case isTrue hz =>
      have hz : (unpackExponent b).toNat = 0 := by rw [hz]; rfl
      rw [hz, Nat.zero_mul, Nat.zero_add, stored_eq (.smallest (by omega))]
      split
      case isTrue hz  => simp [ofUnits, hz]
      case isFalse hz => exact (ofUnits_eq _ (by omega)).symm
    case isFalse hz =>
      have hz : (unpackExponent b).toNat ≠ 0 := fun h => hz (BitVec.toNat_inj.mp h)
      have hone : (1#1 ++ unpackMantissa b).toNat = l.half + (unpackMantissa b).toNat :=
        h.half_eq ▸ toNat_one_append
      simp only [stored_eq (split_normal hz hm), hone]
      exact (ofUnits_eq _ (by omega)).symm

theorem exists_parts_eq (hb : bits < l.signBit) :
    ∃ b : BitVec spec.numBits, l.parts b.toNat = (negative, bits) := by
  have hlt : l.withSign negative bits < 2 ^ spec.numBits := by
    have hlt := @withSign_lt l negative bits hb
    rwa [h.signBit, ← pow_succ', Nat.add_comm, Nat.add_comm spec.mantissaBitsWithoutImplicit,
      ← Nat.add_assoc] at hlt
  refine ⟨BitVec.ofNatLT _ hlt, ?_⟩
  rw [BitVec.toNat_ofNatLT, parts_withSign hb]

theorem reread_ofParts (hb : bits ≤ l.infinity) :
    reread spec (l.ofParts negative bits) = l.ofParts negative bits := by
  obtain ⟨b, hp⟩ := @exists_parts_eq l spec bits negative h
    (Nat.lt_of_le_of_lt hb h.infinity_lt_signBit)
  have hu := h.unpack_eq b
  have hv : spec.Valid b := valid_of_le (by
    rw [← h.signBit, ← h.infinity]
    have hp : (l.parts b.toNat).2 ≤ l.infinity := by rw [hp]; exact hb
    exact hp)
  rw [hp] at hu
  rw [← hu, reread, pack_unpack h.exponentBits hv]

theorem pack_stored (hb : l.infinity ≤ bits) :
    UnpackedFloat.pack spec (l.stored s bits) = UnpackedFloat.pack spec (.infinity s) := by
  obtain ⟨m, k, hs⟩ := l.exists_split bits
  have hhalf := l.half_pos
  have hsize : 2 * 2 ≤ 2 ^ spec.exponentBits :=
    Nat.pow_le_pow_right Nat.two_pos h.exponentBits
  -- The exponent is too large for its bits.
  have hk : 2 ^ spec.exponentBits ≤ k + 2 := by
    have hlt : (2 ^ spec.exponentBits - 1) * l.half < (k + 2) * l.half := by
      have hm := hs.lt
      rw [h.infinity_eq, hs.bits_eq] at hb
      rw [Nat.add_mul]
      omega
    have := Nat.lt_of_mul_lt_mul_right hlt
    omega
  have hm := hs.le_or_eq.resolve_right (by omega)
  have hu := h.unit
  have he : (((k : Int) - l.unit) + spec.exponentBias +
      spec.mantissaBitsWithoutImplicit).toNat = k + 1 := by
    omega
  rw [stored_eq hs, ofUnits_eq (by omega) rfl]
  simp only [UnpackedFloat.pack, he]
  exact if_pos hk

-- What is too large for its bits is infinite.
theorem reread_stored :
    reread spec (l.stored (signOf negative) bits) = l.ofParts negative (min bits l.infinity) := by
  obtain hb | hb := Nat.lt_or_ge bits l.infinity
  case inl =>
    rw [Nat.min_eq_left (Nat.le_of_lt hb), ← ofParts_of_lt hb,
      h.reread_ofParts (Nat.le_of_lt hb)]
  case inr =>
    rw [Nat.min_eq_right hb, reread, h.pack_stored hb, ← ofParts_infinity]
    exact h.reread_ofParts (Nat.le_refl _)

end Describes

end PagePrep.Layout
