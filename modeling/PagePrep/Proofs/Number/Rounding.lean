import Mathlib
import PagePrep.Proofs.Number.Stored

-- What is computed is the nearest number to the exact result. The bits that are lost on the way to
-- it are no more than two, which tell how the rest compares with one half.

namespace PagePrep.Layout

open Float.Model Float.Model.UnpackedFloat

variable {l : Layout} {spec : Format} {m n k j d num den : Nat} {e : Int} {s : Sign}
  {em : ExtendedMantissa} {acc : Accuracy} {negative : Bool}

section Cutting

-- The extended mantissa is the whole part of a fraction. How the rest compares with one half is
-- all that rounding has to know of it.
structure Cut (num den : Nat) (em : ExtendedMantissa) : Prop where
  pos       : 0 < den
  mantissa  : em.mantissa = num / den
  roundBit  : em.roundBit ↔ den ≤ 2 * (num % den)
  stickyBit : em.stickyBit ↔ num % den ≠ 0 ∧ 2 * (num % den) ≠ den

theorem Cut.exact (m : Nat) : Cut m 1 (.ofMantissaAndAccuracy m .exact) where
  pos       := Nat.one_pos
  mantissa  := (Nat.div_one m).symm
  roundBit  := by simp [ExtendedMantissa.ofMantissaAndAccuracy, Nat.mod_one]
  stickyBit := by simp [ExtendedMantissa.ofMantissaAndAccuracy, Nat.mod_one]

theorem Cut.quotient (num : Nat) (h : 0 < den) :
    Cut num den (.ofMantissaAndAccuracy (num / den) (accuracyOfFraction (num % den) den)) := by
  by_cases hz : num % den = 0
  case pos =>
    rw [accuracyOfFraction, if_pos hz]
    exact ⟨h, rfl, by simp [ExtendedMantissa.ofMantissaAndAccuracy, hz, Nat.ne_of_gt h],
      by simp [ExtendedMantissa.ofMantissaAndAccuracy, hz]⟩
  case neg =>
    rw [accuracyOfFraction, if_neg hz]
    cases hc : compare (2 * (num % den)) den
    case lt =>
      have hlt := Nat.compare_eq_lt.mp hc
      exact ⟨h, rfl, by simp [ExtendedMantissa.ofMantissaAndAccuracy, hlt],
        by simp [ExtendedMantissa.ofMantissaAndAccuracy, hz, Nat.ne_of_lt hlt]⟩
    case eq =>
      have heq := Nat.compare_eq_eq.mp hc
      exact ⟨h, rfl, by simp [ExtendedMantissa.ofMantissaAndAccuracy, heq],
        by simp [ExtendedMantissa.ofMantissaAndAccuracy, heq]⟩
    case gt =>
      have hgt := Nat.compare_eq_gt.mp hc
      exact ⟨h, rfl, by simp [ExtendedMantissa.ofMantissaAndAccuracy, Nat.le_of_lt hgt],
        by simp [ExtendedMantissa.ofMantissaAndAccuracy, hz, Nat.ne_of_gt hgt]⟩

theorem Cut.shiftRightOne (h : Cut num den em) : Cut num (den * 2) em.shiftRightOne := by
  have hmod : num % (den * 2) = num % den + den * (em.mantissa % 2) := by
    rw [h.mantissa, Nat.mod_mul]
  have hlt := Nat.mod_lt num h.pos
  constructor
  case pos => exact Nat.mul_pos h.pos Nat.two_pos
  case mantissa =>
    rw [← Nat.div_div_eq_div_mul, ← h.mantissa]
    rfl
  case roundBit =>
    rw [hmod, ExtendedMantissa.shiftRightOne]
    obtain hb | hb := Nat.mod_two_eq_zero_or_one em.mantissa <;> simp [hb] <;> omega
  case stickyBit =>
    have hr := h.roundBit
    have hs := h.stickyBit
    rw [hmod, ExtendedMantissa.shiftRightOne]
    obtain hb | hb := Nat.mod_two_eq_zero_or_one em.mantissa <;> simp [hb, hr, hs] <;> omega

theorem Cut.shiftRight (h : Cut num den em) (n : Nat) : Cut num (den * 2 ^ n) (em >>> n) := by
  induction n
  case zero =>
    rw [pow_zero, Nat.mul_one]
    exact h
  case succ n ih =>
    rw [pow_succ, ← Nat.mul_assoc]
    exact ih.shiftRightOne

theorem Cut.roundedMantissa (h : Cut num den em) :
    em.roundedMantissa = roundDiv .toEven num den := by
  have hr := h.roundBit
  have hs := h.stickyBit
  rw [roundDiv, ← h.mantissa]
  obtain ⟨mantissa, roundBit, stickyBit⟩ := em
  cases roundBit
  all_goals
    cases stickyBit
    all_goals
      simp [ExtendedMantissa.roundedMantissa, ExtendedMantissa.accuracy,
        Accuracy.roundToNearestEven] at *
      split_ifs <;> omega

theorem Cut.eq_div (h : Cut num den (.ofMantissaAndAccuracy m acc)) : m = num / den := by
  rw [← h.mantissa]
  unfold ExtendedMantissa.ofMantissaAndAccuracy
  split <;> rfl

end Cutting

section Exponent

theorem log2_mul_two_pow (hm : m ≠ 0) : (m * 2 ^ k).log2 = m.log2 + k := by
  have hz : m * 2 ^ k ≠ 0 := Nat.mul_ne_zero hm (Nat.ne_of_gt (Nat.two_pow_pos k))
  rw [Nat.log2_eq_iff hz, pow_add, Nat.add_right_comm, pow_add]
  exact ⟨Nat.mul_le_mul_right _ (Nat.log2_self_le hm),
    Nat.mul_lt_mul_of_pos_right Nat.lt_log2_self (Nat.two_pow_pos k)⟩

theorem log2_div_two_pow : (m / 2 ^ k).log2 = m.log2 - k := by
  rw [Nat.log2_eq_log_two, Nat.log2_eq_log_two, Nat.log_div_base_pow]

-- What is behind the point does not count for the logarithm.
theorem log2_mul_two_pow_div (hq : num / den ≠ 0) :
    (num * 2 ^ k / den).log2 = (num / den).log2 + k := by
  have hden : 0 < den := Nat.pos_of_ne_zero fun h => hq (by rw [h, Nat.div_zero])
  have hpow := Nat.two_pow_pos k
  have hlo : (num / den) * 2 ^ k ≤ num * 2 ^ k / den := by
    rw [Nat.le_div_iff_mul_le hden, Nat.mul_right_comm]
    exact Nat.mul_le_mul_right _ (Nat.div_mul_le_self ..)
  have hhi : num * 2 ^ k / den < (num / den + 1) * 2 ^ k := by
    rw [Nat.div_lt_iff_lt_mul hden, Nat.mul_right_comm]
    exact Nat.mul_lt_mul_of_pos_right (Nat.lt_mul_of_div_lt (Nat.lt_succ_self _) hden) hpow
  have hz : num * 2 ^ k / den ≠ 0 :=
    Nat.ne_of_gt (Nat.lt_of_lt_of_le (Nat.mul_pos (Nat.pos_of_ne_zero hq) hpow) hlo)
  rw [Nat.log2_eq_iff hz, pow_add, Nat.add_right_comm, pow_add]
  exact ⟨Nat.le_trans (Nat.mul_le_mul_right _ (Nat.log2_self_le hq)) hlo,
    Nat.lt_of_lt_of_le hhi (Nat.mul_le_mul_right _ Nat.lt_log2_self)⟩

-- A fraction times `2 ^ e`, rounded down.
theorem log2_scaled (hm : num / den ≠ 0 ∨ k ≤ d) :
    (num * 2 ^ k / (den * 2 ^ d)).log2 = (num / den).log2 + k - d := by
  obtain hd | hd := Nat.le_total d k
  case inl =>
    obtain ⟨i, rfl⟩ := Nat.exists_eq_add_of_le' hd
    have hq : num / den ≠ 0 ∨ i = 0 := hm.imp_right (by omega)
    rw [pow_add, ← Nat.mul_assoc, Nat.mul_div_mul_right _ _ (Nat.two_pow_pos d), ← Nat.add_assoc,
      Nat.add_sub_cancel]
    obtain hq | rfl := hq
    case inl => exact log2_mul_two_pow_div hq
    case inr => rw [pow_zero, Nat.mul_one, Nat.add_zero]
  case inr =>
    obtain ⟨i, rfl⟩ := Nat.exists_eq_add_of_le' hd
    rw [pow_add, ← Nat.mul_assoc, Nat.mul_div_mul_right _ _ (Nat.two_pow_pos k),
      ← Nat.div_div_eq_div_mul, log2_div_two_pow, Nat.add_sub_add_right]

end Exponent

namespace Describes

variable (h : l.Describes spec)
include h

theorem targetExponent_eq (e : Int) :
    spec.targetExponent e = max (e - l.precision) (-l.unit) := by
  have hp := h.precision
  have hu := h.unit
  have hb : 2 ≤ 2 ^ (spec.exponentBits - 1) := by
    have h := Nat.pow_le_pow_right Nat.two_pos (Nat.le_sub_one_of_lt h.exponentBits)
    rwa [Nat.pow_one] at h
  have hc : ((2 : Int) ^ (spec.exponentBits - 1)) = (2 ^ (spec.exponentBits - 1) : Nat) := by
    push_cast
    rfl
  rw [Format.exponentBias] at hu
  rw [Format.targetExponent, Format.minExponent, Format.mantissaBits, hc]
  generalize (2 : Nat) ^ (spec.exponentBits - 1) = size at *
  omega

-- A significand that is short enough loses no bit.
theorem shiftToTargetExponent_of_lt (hm : m < 2 * l.half) :
    shiftToTargetExponent spec m (k - l.unit) .exact = (⟨m, false, false⟩, (k : Int) - l.unit) := by
  have hlog : m.log2 < l.precision := by
    by_cases hz : m = 0
    case pos =>
      rw [hz, Nat.log2_zero]
      exact h.precision_pos
    case neg => exact (Nat.log2_lt hz).mpr (two_mul_half h.precision_pos ▸ hm)
  have hz : (spec.targetExponent (totalExponent m (k - l.unit)) - (k - l.unit)).toNat = 0 := by
    rw [h.targetExponent_eq, totalExponent]
    omega
  rw [shiftToTargetExponent, shiftToExponent]
  simp only [hz]
  exact Prod.ext rfl (Int.add_zero _)

-- One with a bit too many is even.
theorem shiftToTargetExponent_of_eq :
    shiftToTargetExponent spec (2 * l.half) (k - l.unit) .exact =
      (⟨l.half, false, false⟩, ((k + 1 : Nat) : Int) - l.unit) := by
  have hz : (spec.targetExponent (totalExponent (2 * l.half) (k - l.unit)) -
      (k - l.unit)).toNat = 1 := by
    rw [h.targetExponent_eq, totalExponent, two_mul_half h.precision_pos, Nat.log2_two_pow]
    omega
  have hshift : ExtendedMantissa.ofMantissaAndAccuracy (2 * l.half) .exact >>> 1 =
      ⟨l.half, false, false⟩ := by
    change ExtendedMantissa.shiftRightOne ⟨2 * l.half, false, false⟩ = _
    simp [ExtendedMantissa.shiftRightOne]
  rw [shiftToTargetExponent, shiftToExponent]
  simp only [hz, hshift]
  exact Prod.ext rfl (by simp only; omega)

-- The significand `m`, rounded, at the exponent that it is rounded at.
theorem exists_shiftToTargetExponent (hm : m ≤ 2 * l.half) (hk : l.half ≤ m ∨ k = 0) :
    ∃ n j, l.Split (k * l.half + m) n j ∧
      shiftToTargetExponent spec m (k - l.unit) .exact =
        (⟨n, false, false⟩, (j : Int) - l.unit) := by
  obtain hm | hm := Nat.lt_or_eq_of_le hm
  case inl =>
    refine ⟨m, k, ?_, h.shiftToTargetExponent_of_lt hm⟩
    cases hk
    case inl hlo => exact .normal hlo hm
    case inr hk  =>
      rw [hk, Nat.zero_mul, Nat.zero_add]
      exact .smallest hm
  case inr =>
    subst hm
    have hs := split_normal (l := l) (Nat.succ_ne_zero (k + 1)) l.half_pos
    have he : k * l.half + 2 * l.half = (k + 1).succ * l.half + 0 := by
      rw [Nat.succ_eq_add_one]
      ring
    exact ⟨l.half, k + 1, by rwa [he], h.shiftToTargetExponent_of_eq⟩

-- The exponent that a fraction is rounded at is the one of its quotient.
theorem targetExponent_totalExponent (hm : num / den ≠ 0 ∨ e ≤ -l.unit) (he : e = k - d) :
    spec.targetExponent (totalExponent (num / den) e) =
      (l.exponentOf (num * 2 ^ k * 2 ^ l.unit / (den * 2 ^ d)) : Int) - l.unit := by
  have hp := h.precision_pos
  rw [h.targetExponent_eq, totalExponent, Nat.mul_assoc, ← pow_add, exponentOf,
    log2_scaled (hm.imp_right (by omega))]
  omega

-- The number that the exact result `num / den * 2 ^ e` is rounded to, however large it is.
theorem roundWithAccuracy_eq (hc : Cut num den (.ofMantissaAndAccuracy m acc))
    (hm : m ≠ 0 ∨ e ≤ -l.unit) (he : e = k - d)
    (ht : e ≤ spec.targetExponent (totalExponent m e)) :
    roundWithAccuracy spec s m e acc =
      l.stored s (l.exponentOf (num * 2 ^ k * 2 ^ l.unit / (den * 2 ^ d)) * l.half +
        roundDiv .toEven (num * 2 ^ k * 2 ^ l.unit)
          (den * 2 ^ d * 2 ^ l.exponentOf (num * 2 ^ k * 2 ^ l.unit / (den * 2 ^ d)))) := by
  have hte := h.targetExponent_totalExponent (hc.eq_div ▸ hm) he
  rw [← hc.eq_div] at hte
  have hhi := roundDiv_exponentOf_le h.precision_pos .toEven
    (num * 2 ^ k * 2 ^ l.unit) (den * 2 ^ d)
  have hlo := @le_roundDiv_exponentOf l (num * 2 ^ k * 2 ^ l.unit) (den * 2 ^ d) h.precision_pos
    .toEven
  generalize l.exponentOf (num * 2 ^ k * 2 ^ l.unit / (den * 2 ^ d)) = i at *
  -- What is left out before the rounding is all that is ever left out.
  have hi : i + d = (i + d - (k + l.unit)) + (k + l.unit) := by omega
  have hn : ((i : Int) - l.unit - e).toNat = i + d - (k + l.unit) := by omega
  have hj : e + (i + d - (k + l.unit) : Nat) = i - l.unit := by omega
  have hr := (hc.shiftRight (i + d - (k + l.unit))).roundedMantissa
  have hu : roundDiv .toEven num (den * 2 ^ (i + d - (k + l.unit))) =
      roundDiv .toEven (num * 2 ^ k * 2 ^ l.unit) (den * 2 ^ d * 2 ^ i) := by
    have hden := hc.pos
    refine roundDiv_congr (by positivity) (by positivity) ?_
    calc num * (den * 2 ^ d * 2 ^ i)
      _ = num * den * 2 ^ (i + d) := by rw [pow_add]; ring
      _ = _                       := by rw [hi, pow_add, pow_add, Nat.add_sub_cancel]; ring
  rw [hu] at hr
  obtain ⟨n, j, hs, hsh⟩ := h.exists_shiftToTargetExponent hhi (or_iff_not_imp_right.mpr hlo)
  rw [stored_eq hs, roundWithAccuracy, shiftToTargetExponent, hte, shiftToExponent]
  simp only [hn, hj, hr, hsh]
  rfl

theorem reread_roundWithAccuracy (hc : Cut num den (.ofMantissaAndAccuracy m acc))
    (hm : m ≠ 0 ∨ e ≤ -l.unit) (he : e = k - d)
    (ht : e ≤ spec.targetExponent (totalExponent m e)) :
    reread spec (roundWithAccuracy spec (signOf negative) m e acc) =
      l.ofParts negative (l.nearest (num * 2 ^ k) (den * 2 ^ d)) := by
  rw [h.roundWithAccuracy_eq hc hm he ht, h.reread_stored, nearest_def]

-- A whole number is moved to the left, so far as it takes to round it.
theorem reread_round (hm : m ≠ 0) (he : e = k - d) :
    reread spec (.round spec (signOf negative) m e) =
      l.ofParts negative (l.nearest (m * 2 ^ k) (2 ^ d)) := by
  obtain ⟨t, ht⟩ : ∃ t, t = spec.targetExponent (totalExponent m e) := ⟨_, rfl⟩
  have hz : m * 2 ^ (e - t).toNat ≠ 0 := Nat.mul_ne_zero hm (Nat.ne_of_gt (Nat.two_pow_pos _))
  have hte : totalExponent (m * 2 ^ (e - t).toNat) (e - (e - t).toNat) = totalExponent m e := by
    rw [totalExponent, totalExponent, log2_mul_two_pow hm]
    omega
  have he : e - (e - t).toNat = (k : Int) - (d + (e - t).toNat : Nat) := by omega
  have hn : l.nearest (m * 2 ^ (e - t).toNat * 2 ^ k) (1 * 2 ^ (d + (e - t).toNat)) =
      l.nearest (m * 2 ^ k) (2 ^ d) := by
    refine nearest_congr (by positivity) (by positivity) ?_
    rw [pow_add]
    ring
  rw [UnpackedFloat.round]
  simp only [← ht, decreaseExponent, Nat.shiftLeft_eq]
  rw [h.reread_roundWithAccuracy (.exact _) (.inl hz) he (by rw [hte, ← ht]; omega), hn]

theorem nearest_zero (hden : 0 < den) : l.nearest 0 den = 0 :=
  nearest_eq_zero h.precision_pos (by omega)

-- A signed whole number.
theorem reread_normalize (z : Int) (he : e = k - d) :
    reread spec (.normalize spec z e .positive) =
      l.ofParts (z < 0) (l.nearest (z.natAbs * 2 ^ k) (2 ^ d)) := by
  rw [UnpackedFloat.normalize]
  cases hc : compare z 0
  case lt =>
    have hz : z < 0 := Int.compare_eq_lt.mp hc
    have hn : (-z).toNat = z.natAbs := by omega
    rw [decide_eq_true hz, hn]
    exact @reread_round l spec z.natAbs k d e true h (by omega) he
  case eq =>
    obtain rfl : z = 0 := Int.compare_eq_eq.mp hc
    rw [Int.natAbs_zero, Nat.zero_mul, h.nearest_zero (Nat.two_pow_pos d),
      decide_eq_false (by omega), h.ofParts_zero]
    exact @ofParts_zero l spec false h ▸ h.reread_ofParts (Nat.zero_le _)
  case gt =>
    have hz : 0 < z := Int.compare_eq_gt.mp hc
    have hn : z.toNat = z.natAbs := by omega
    rw [decide_eq_false (by omega), hn]
    exact @reread_round l spec z.natAbs k d e false h (by omega) he

end Describes

section Operations

variable {p q : Bool} {a b : Nat}

theorem signOf_mul_signOf (p q : Bool) : signOf p * signOf q = signOf (p ^^ q) := by
  cases p <;> cases q <;> rfl

theorem signOf_div_signOf (p q : Bool) : signOf p / signOf q = signOf (p ^^ q) := by
  cases p <;> cases q <;> rfl

theorem mul_ofUnits_of_mul_eq_zero {t : Sign} (h : m * n = 0) :
    UnpackedFloat.mul spec (l.ofUnits s m k) (l.ofUnits t n j) = .zero (s * t) := by
  unfold ofUnits
  split <;> split <;> simp_all [UnpackedFloat.mul]

theorem apply_mul_two_pow (s : Sign) (m : Nat) {i : Nat} (h : i ≤ k) :
    s.apply (m * 2 ^ k : Nat) = s.apply (m * 2 ^ (k - i) : Nat) * 2 ^ i := by
  have he : m * 2 ^ k = m * 2 ^ (k - i) * 2 ^ i := by
    rw [Nat.mul_assoc, ← pow_add, Nat.sub_add_cancel h]
  rw [he]
  cases s <;> simp [Sign.apply]

theorem half_le_mul_of_split (ha : l.Split a m k) (hb : l.Split b n j) (hz : m * n ≠ 0) :
    l.half ≤ m * n ∨ k + j = 0 := by
  obtain ⟨hm, hn⟩ := Nat.mul_ne_zero_iff.mp hz
  cases ha.le_or_eq
  case inl h => exact .inl (Nat.le_trans h (Nat.le_mul_of_pos_right _ (Nat.pos_of_ne_zero hn)))
  case inr hk =>
    cases hb.le_or_eq
    case inl h  => exact .inl (Nat.le_trans h (Nat.le_mul_of_pos_left _ (Nat.pos_of_ne_zero hm)))
    case inr hj => exact .inr (by rw [hk, hj])

namespace Describes

variable (h : l.Describes spec)
include h

-- A significand with all its bits is long enough to be rounded at any exponent.
theorem le_targetExponent (hm : m ≠ 0) (hl : l.half ≤ m ∨ e ≤ -l.unit) :
    e ≤ spec.targetExponent (totalExponent m e) := by
  rw [h.targetExponent_eq, totalExponent]
  cases hl
  case inl hl =>
    have hlog := (Nat.le_log2 hm).mpr (show 2 ^ (l.precision - 1) ≤ m from hl)
    omega
  case inr hl => omega

-- A product is the number that is nearest to it.
theorem reread_mul :
    reread spec (.mul spec (l.stored (signOf p) a) (l.stored (signOf q) b)) =
      l.ofParts (p ^^ q) (l.nearest (l.units a * l.units b) (2 ^ l.unit * 2 ^ l.unit)) := by
  obtain ⟨m, k, ha⟩ := l.exists_split a
  obtain ⟨n, j, hb⟩ := l.exists_split b
  have hu : m * 2 ^ k * (n * 2 ^ j) = m * n * 2 ^ (k + j) := by rw [pow_add]; ring
  rw [stored_eq ha, stored_eq hb, ha.units_eq, hb.units_eq, hu]
  by_cases hz : m * n = 0
  case pos =>
    rw [mul_ofUnits_of_mul_eq_zero hz, signOf_mul_signOf, ← h.ofParts_zero,
      h.reread_ofParts (Nat.zero_le _), hz, Nat.zero_mul, h.nearest_zero (by positivity)]
  case neg =>
    obtain ⟨hm, hn⟩ := Nat.mul_ne_zero_iff.mp hz
    have he : (k : Int) - l.unit + (j - l.unit) = (k + j : Nat) - (l.unit + l.unit : Nat) := by
      omega
    have hl := half_le_mul_of_split ha hb hz
    rw [ofUnits_eq (Nat.pos_of_ne_zero hm) rfl, ofUnits_eq (Nat.pos_of_ne_zero hn) rfl,
      UnpackedFloat.mul, signOf_mul_signOf,
      h.reread_roundWithAccuracy (.exact _) (.inl hz) he
        (h.le_targetExponent hz (hl.imp_right (by omega))), Nat.one_mul, pow_add 2 l.unit]

-- The quotient of two significands, the first of them moved to the left, has all its bits or is
-- rounded at the smallest exponent.
theorem half_le_quotient (hm : m ≠ 0) (hn : n ≠ 0) {i : Nat}
    (hi : n.log2 + l.precision ≤ m.log2 + i) : l.half ≤ m * 2 ^ i / n := by
  have hlo : 2 ^ (m.log2 + i) ≤ m * 2 ^ i := by
    rw [pow_add]
    exact Nat.mul_le_mul_right _ (Nat.log2_self_le hm)
  rw [Nat.le_div_iff_mul_le (Nat.pos_of_ne_zero hn)]
  have hp := h.precision_pos
  calc l.half * n
    _ ≤ 2 ^ (l.precision - 1) * 2 ^ (n.log2 + 1) :=
      Nat.mul_le_mul_left _ (Nat.le_of_lt Nat.lt_log2_self)
    _ = 2 ^ (n.log2 + l.precision)               := by rw [← pow_add]; congr 1; omega
    _ ≤ 2 ^ (m.log2 + i)                         := Nat.pow_le_pow_right Nat.two_pos hi
    _ ≤ m * 2 ^ i                                := hlo

-- A quotient is the number that is nearest to it.
theorem reread_div (hz : b ≠ 0) :
    reread spec (.div spec (l.stored (signOf p) a) (l.stored (signOf q) b)) =
      l.ofParts (p ^^ q) (l.nearest (l.units a) (l.units b)) := by
  obtain ⟨m, k, ha⟩ := l.exists_split a
  obtain ⟨n, j, hb⟩ := l.exists_split b
  have hn := significand_ne_zero hb hz
  rw [stored_eq ha, stored_eq hb, ha.units_eq, hb.units_eq, ofUnits_eq (Nat.pos_of_ne_zero hn) rfl]
  by_cases hm : m = 0
  case pos =>
    have hd : UnpackedFloat.div spec (l.ofUnits (signOf p) m k)
        (.finite (signOf q) n (j - l.unit) (Nat.pos_of_ne_zero hn)) =
          .zero (signOf p / signOf q) := by
      simp only [ofUnits, dif_pos hm]
      rfl
    rw [hd, signOf_div_signOf, ← h.ofParts_zero, h.reread_ofParts (Nat.zero_le _), hm, Nat.zero_mul,
      h.nearest_zero (by positivity)]
  case neg =>
    obtain ⟨t, ht⟩ : ∃ t, t = min ((k : Int) - l.unit - (j - l.unit)) (spec.targetExponent
        (totalExponent m (k - l.unit) - totalExponent n (j - l.unit))) := ⟨_, rfl⟩
    obtain ⟨i, hi⟩ : ∃ i, i = ((k : Int) - l.unit - (j - l.unit) - t).toNat := ⟨_, rfl⟩
    have hlong : l.half ≤ m * 2 ^ i / n ∨ t ≤ -l.unit := by
      rw [h.targetExponent_eq, totalExponent, totalExponent] at ht
      obtain hle | hle := le_or_gt t (-l.unit)
      case inl => exact .inr hle
      case inr => exact .inl (h.half_le_quotient hm hn (by omega))
    have hq : m * 2 ^ i / n ≠ 0 ∨ t ≤ -l.unit :=
      hlong.imp_left fun hle => Nat.ne_of_gt (Nat.lt_of_lt_of_le l.half_pos hle)
    have hle : t ≤ spec.targetExponent (totalExponent (m * 2 ^ i / n) t) := by
      by_cases hz : m * 2 ^ i / n = 0
      case pos =>
        have ht := hq.resolve_left (absurd hz)
        rw [h.targetExponent_eq]
        omega
      case neg => exact h.le_targetExponent hz hlong
    have he : t = (t.toNat : Int) - ((-t).toNat : Nat) := by omega
    have hnear : l.nearest (m * 2 ^ i * 2 ^ t.toNat) (n * 2 ^ (-t).toNat) =
        l.nearest (m * 2 ^ k) (n * 2 ^ j) := by
      refine nearest_congr (by positivity) (by positivity) ?_
      have hexp : i + t.toNat + j = k + (-t).toNat := by omega
      calc m * 2 ^ i * 2 ^ t.toNat * (n * 2 ^ j)
        _ = m * n * 2 ^ (i + t.toNat + j)  := by rw [pow_add, pow_add]; ring
        _ = m * 2 ^ k * (n * 2 ^ (-t).toNat) := by rw [hexp, pow_add]; ring
    rw [ofUnits_eq (Nat.pos_of_ne_zero hm) rfl, UnpackedFloat.div, signOf_div_signOf]
    simp only [divCore, ← ht, ← hi, Nat.shiftLeft_eq]
    rw [h.reread_roundWithAccuracy (.quotient _ (Nat.pos_of_ne_zero hn)) hq he hle, hnear]

-- A sum is the number that is nearest to it.
theorem reread_add (ha : a ≠ 0) (hb : b ≠ 0) :
    reread spec (.add spec (l.stored (signOf p) a) (l.stored (signOf q) b)) =
      l.ofParts ((signOf p).apply (l.units a) + (signOf q).apply (l.units b) < 0)
        (l.nearest ((signOf p).apply (l.units a) + (signOf q).apply (l.units b)).natAbs
          (2 ^ l.unit)) := by
  obtain ⟨m, k, ha'⟩ := l.exists_split a
  obtain ⟨n, j, hb'⟩ := l.exists_split b
  have hm := significand_ne_zero ha' ha
  have hn := significand_ne_zero hb' hb
  have hmin : min ((k : Int) - l.unit) (j - l.unit) = (min k j : Nat) - l.unit := by omega
  have hk : ((k : Int) - l.unit - ((min k j : Nat) - l.unit)).toNat = k - min k j := by omega
  have hj : ((j : Int) - l.unit - ((min k j : Nat) - l.unit)).toNat = j - min k j := by omega
  -- Both significands are moved to the smaller exponent.
  have hleft := apply_mul_two_pow (signOf p) m (Nat.min_le_left k j)
  have hright := apply_mul_two_pow (signOf q) n (Nat.min_le_right k j)
  rw [stored_eq ha', stored_eq hb', ha'.units_eq, hb'.units_eq,
    ofUnits_eq (Nat.pos_of_ne_zero hm) rfl, ofUnits_eq (Nat.pos_of_ne_zero hn) rfl,
    UnpackedFloat.add, hleft, hright, ← Int.add_mul]
  simp only [decreaseExponent, hmin, hk, hj, Nat.shiftLeft_eq]
  rw [h.reread_normalize _ rfl, Int.natAbs_mul]
  have hneg (z : Int) : z < 0 ↔ z * 2 ^ min k j < 0 := by
    have hlt := mul_lt_mul_iff_left₀ (show (0 : Int) < 2 ^ min k j by positivity) (b := z) (c := 0)
    rwa [zero_mul, Iff.comm] at hlt
  rw [decide_eq_decide.mpr (hneg _)]
  rfl

-- A whole number is stored as the number that is nearest to it.
theorem reread_ofNat (m : Nat) : reread spec (.ofNat spec m) = l.ofParts false (l.nearest m 1) := by
  have hn := h.reread_normalize (k := 0) (d := 0) m rfl
  rwa [Int.natAbs_natCast, pow_zero, Nat.mul_one, decide_eq_false (by omega)] at hn

end Describes

end Operations

section Whole

variable {bits i : Nat}

namespace Describes

variable (h : l.Describes spec)
include h

theorem units_infinity : l.units l.infinity = l.half * 2 ^ (2 ^ spec.exponentBits - 2) := by
  have hsize : 2 * 2 ≤ 2 ^ spec.exponentBits :=
    Nat.pow_le_pow_right Nat.two_pos h.exponentBits
  have hs := @split_normal l (2 ^ spec.exponentBits - 1) 0 (by omega) l.half_pos
  rw [h.infinity_eq, ← Nat.add_zero (_ * l.half), hs.units_eq, Nat.add_zero, Nat.sub_sub]

-- A number is what it is nearest to if nothing is left to round.
theorem nearest_of_units (hden : 0 < den) (hb : bits ≤ l.infinity)
    (hu : l.units bits * den = num * 2 ^ l.unit) : l.nearest num den = bits := by
  rw [nearest_congr hden (Nat.two_pow_pos l.unit) hu.symm]
  exact nearest_units h.precision_pos hb

theorem exists_units_lt (hm : m < 2 * l.half) (hi : i + 1 ≤ 2 ^ spec.exponentBits - 2) :
    ∃ bits < l.infinity, l.units bits = m * 2 ^ i := by
  obtain ⟨bits, hb⟩ := l.exists_units_eq i hm
  refine ⟨bits, l.units_strictMono.lt_iff_lt.mp ?_, hb⟩
  calc l.units bits
    _ = m * 2 ^ i                               := hb
    _ < 2 * l.half * 2 ^ i                      := Nat.mul_lt_mul_of_pos_right hm (by positivity)
    _ = l.half * 2 ^ (i + 1)                    := by rw [pow_succ]; ring
    _ ≤ l.half * 2 ^ (2 ^ spec.exponentBits - 2) :=
      Nat.mul_le_mul_left _ (Nat.pow_le_pow_right Nat.two_pos hi)
    _ = l.units l.infinity                      := h.units_infinity.symm

-- A significand fits at any exponent up to the one of the whole numbers.
theorem exists_units_scaled (hm : m < 2 * l.half) (hi : i ≤ l.unit) :
    ∃ bits < l.infinity, l.units bits = m * 2 ^ i := by
  have hu := h.unit
  have hw := h.whole
  have hsize : 2 ^ spec.exponentBits = 2 * (spec.exponentBias + 1) := by
    have hpos := Nat.two_pow_pos (spec.exponentBits - 1)
    rw [Format.exponentBias, Nat.sub_one_add_one (Nat.ne_of_gt hpos), ← pow_succ',
      Nat.sub_one_add_one (Nat.ne_zero_of_lt h.exponentBits)]
  exact h.exists_units_lt hm (by omega)

-- A whole number of no more bits than a significand has loses none of them.
theorem exists_reread_ofNat (hm : m < 2 * l.half) :
    ∃ bits < l.infinity, l.units bits = m * 2 ^ l.unit ∧
      reread spec (.ofNat spec m) = l.stored (signOf false) bits := by
  obtain ⟨bits, hi, hb⟩ := h.exists_units_scaled hm (Nat.le_refl l.unit)
  have hn := h.nearest_of_units Nat.one_pos (Nat.le_of_lt hi) ((Nat.mul_one _).trans hb)
  exact ⟨bits, hi, hb, by rw [h.reread_ofNat, hn, ofParts_of_lt hi]⟩

end Describes

end Whole

end PagePrep.Layout
