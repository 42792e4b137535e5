import Mathlib
import PagePrep.Proofs.Number.Rounding

-- Every number of the shorter format is one of the wider format, so nothing is lost on the way
-- there and back.

namespace PagePrep

namespace Layout

variable {bits : Nat}

-- The unit of the wider format is smaller.
theorem exists_units_double (h : bits < single.infinity) :
    ∃ bits' < double.infinity,
      double.units bits' = single.units bits * 2 ^ (double.unit - single.unit) := by
  obtain ⟨m, e, hs⟩ := single.exists_split bits
  have hm : m < 2 * double.half := Nat.lt_trans hs.lt (by decide +kernel)
  obtain ⟨bits', hb⟩ := double.exists_units_eq (e + (double.unit - single.unit)) hm
  have he : double.units bits' = single.units bits * 2 ^ (double.unit - single.unit) := by
    rw [hb, hs.units_eq, pow_add, Nat.mul_assoc]
  have hlt := Nat.mul_lt_mul_of_pos_right (single.units_strictMono h)
    (Nat.two_pow_pos (double.unit - single.unit))
  refine ⟨bits', double.units_strictMono.lt_iff_lt.mp ?_, he⟩
  rw [describes_single.units_infinity] at hlt
  rw [he, describes_double.units_infinity]
  exact Nat.lt_of_lt_of_le hlt (by decide +kernel)

theorem nearest_double_single (h : bits < single.infinity) :
    ∃ bits' < double.infinity,
      double.nearest (single.fraction bits).1 (single.fraction bits).2 = bits' ∧
      single.nearest (double.fraction bits').1 (double.fraction bits').2 = bits := by
  obtain ⟨bits', hlt, hb⟩ := exists_units_double h
  have hu : (2 : Nat) ^ double.unit = 2 ^ (double.unit - single.unit) * 2 ^ single.unit := by
    rw [← pow_add, Nat.sub_add_cancel (by decide)]
  have hf : single.units bits * 2 ^ double.unit = double.units bits' * 2 ^ single.unit := by
    rw [hb, hu, Nat.mul_assoc]
  refine ⟨bits', hlt, ?_, ?_⟩
  · rw [fraction_eq, nearest_congr (Nat.two_pow_pos _) (Nat.two_pow_pos _) hf]
    exact nearest_units (by decide) (Nat.le_of_lt hlt)
  · rw [fraction_eq, nearest_congr (Nat.two_pow_pos _) (Nat.two_pow_pos _) hf.symm]
    exact nearest_units (by decide) (Nat.le_of_lt h)

end Layout

variable {x : Float32} {y : Float}

theorem widen_eq (h : ¬x.isNaN) :
    widen x = .ofBits (.ofNat (Layout.double.withSign (singleParts x).1
      (if (singleParts x).2 = Layout.single.infinity then Layout.double.infinity
        else Layout.double.nearest (Layout.single.fraction (singleParts x).2).1
          (Layout.single.fraction (singleParts x).2).2))) :=
  if_neg h

theorem narrow_eq (h : ¬y.isNaN) :
    narrow y = .ofBits (.ofNat (Layout.single.withSign (doubleParts y).1
      (if (doubleParts y).2 = Layout.double.infinity then Layout.single.infinity
        else Layout.single.nearest (Layout.double.fraction (doubleParts y).2).1
          (Layout.double.fraction (doubleParts y).2).2))) :=
  if_neg h

-- The bits of the same number in the wider format, and how these are rounded.
theorem exists_widen (h : ¬x.isNaN) :
    ∃ bits ≤ Layout.double.infinity, doubleParts (widen x) = ((singleParts x).1, bits) ∧
      (bits = Layout.double.infinity ↔ (singleParts x).2 = Layout.single.infinity) ∧
      (bits ≠ Layout.double.infinity →
        Layout.single.nearest (Layout.double.fraction bits).1 (Layout.double.fraction bits).2 =
          (singleParts x).2) := by
  have hle := Nat.not_lt.mp (mt single_isNaN_iff.mpr h)
  rw [widen_eq h]
  obtain hi | hi := Nat.lt_or_eq_of_le hle
  case inl =>
    obtain ⟨bits, hlt, hd, hs⟩ := Layout.nearest_double_single hi
    have hle := Nat.le_of_lt hlt
    rw [if_neg (Nat.ne_of_lt hi), hd, doubleParts_ofBits hle]
    exact ⟨bits, hle, rfl, iff_of_false (Nat.ne_of_lt hlt) (Nat.ne_of_lt hi), fun _ => hs⟩
  case inr =>
    rw [if_pos hi, doubleParts_ofBits (Nat.le_refl _)]
    exact ⟨_, Nat.le_refl _, rfl, iff_of_true rfl hi, fun hn => absurd rfl hn⟩

theorem not_isNaN_widen (h : ¬x.isNaN) : ¬(widen x).isNaN := by
  obtain ⟨bits, hle, hp, -⟩ := exists_widen h
  rw [double_isNaN_iff, hp]
  exact Nat.not_lt.mpr hle

theorem narrow_widen (h : ¬x.isNaN) : narrow (widen x) = x := by
  obtain ⟨bits, hle, hp, hi, hs⟩ := exists_widen h
  have hm : (if bits = Layout.double.infinity then Layout.single.infinity
      else Layout.single.nearest (Layout.double.fraction bits).1 (Layout.double.fraction bits).2) =
        (singleParts x).2 := by
    split
    case isTrue hb  => exact (hi.mp hb).symm
    case isFalse hb => exact hs hb
  rw [narrow_eq (not_isNaN_widen h), hp, hm]
  exact single_ofBits_parts x

end PagePrep
