import Mathlib
import PagePrep.Proofs.Number.Order
import PagePrep.Proofs.Number.Rounding

-- The value of a number, and what a computation makes of the values it starts from. Rounding is
-- monotone, and leaves a value that the format has as it is.

namespace PagePrep

open Float.Model Float.Model.UnpackedFloat

-- The number that is meant. What is no number has no value; zero stands in for it.
noncomputable def value : UnpackedFloat → EReal
  | .notANumber         => 0
  | .zero _             => 0
  | .infinity .positive => ⊤
  | .infinity .negative => ⊥
  | .finite s m e _     => ((s.apply m * 2 ^ e : ℝ) : EReal)

noncomputable def signed (negative : Bool) (r : EReal) : EReal :=
  if negative then -r else r

theorem apply_neg (s : Sign) (n : Int) : (-s).apply n = -s.apply n := by
  cases s
  case negative => exact (Int.neg_neg n).symm
  case positive => rfl

theorem value_neg (f : UnpackedFloat) : value f.neg = -value f := by
  cases f
  case notANumber     => exact neg_zero.symm
  case zero           => exact neg_zero.symm
  case infinity s     => cases s <;> rfl
  case finite s m e _ =>
    rw [UnpackedFloat.neg, value, value, apply_neg, Int.cast_neg, neg_mul, EReal.coe_neg]

theorem signed_mul_signed (p q : Bool) (r r' : EReal) :
    signed p r * signed q r' = signed (p ^^ q) (r * r') := by
  cases p <;> cases q <;> simp [signed]

namespace Layout

variable {l : Layout} {spec : Format} {negative p q : Bool} {a b bits bits' num den n : Nat}
  {f g : UnpackedFloat} {r r' : EReal}

-- The magnitude that is stored as `bits`.
noncomputable def magnitude (l : Layout) (bits : Nat) : EReal :=
  if bits = l.infinity then ⊤ else ((l.units bits / 2 ^ l.unit : ℝ) : EReal)

section Magnitude

theorem magnitude_infinity : l.magnitude l.infinity = ⊤ :=
  if_pos rfl

theorem magnitude_of_lt (h : bits < l.infinity) :
    l.magnitude bits = ((l.units bits / 2 ^ l.unit : ℝ) : EReal) :=
  if_neg (Nat.ne_of_lt h)

theorem magnitude_nonneg : 0 ≤ l.magnitude bits := by
  rw [magnitude]
  split
  case isTrue  => exact le_top
  case isFalse => exact EReal.coe_nonneg.mpr (by positivity)

theorem magnitude_lt_magnitude (h : bits < bits') (hi : bits' ≤ l.infinity) :
    l.magnitude bits < l.magnitude bits' := by
  rw [magnitude_of_lt (Nat.lt_of_lt_of_le h hi)]
  obtain hi | rfl := Nat.lt_or_eq_of_le hi
  case inl =>
    have hu : (l.units bits : ℝ) < l.units bits' := Nat.cast_lt.mpr (l.units_strictMono h)
    rw [magnitude_of_lt hi, EReal.coe_lt_coe_iff]
    exact div_lt_div_of_pos_right hu (by positivity)
  case inr =>
    rw [magnitude_infinity]
    exact EReal.coe_lt_top _

theorem magnitude_le_magnitude (h : bits ≤ bits') (hi : bits' ≤ l.infinity) :
    l.magnitude bits ≤ l.magnitude bits' := by
  obtain h | rfl := Nat.lt_or_eq_of_le h
  case inl => exact le_of_lt (magnitude_lt_magnitude h hi)
  case inr => exact le_refl _

theorem value_stored : value (l.stored (signOf negative) bits) =
    signed negative ((l.units bits / 2 ^ l.unit : ℝ) : EReal) := by
  obtain ⟨m, k, hs⟩ := l.exists_split bits
  rw [stored_eq hs, hs.units_eq]
  by_cases hm : m = 0
  case pos => cases negative <;> simp [ofUnits, hm, value, signed]
  case neg =>
    have he : (2 : ℝ) ^ ((k : Int) - l.unit) = 2 ^ k / 2 ^ l.unit := by
      rw [zpow_sub₀ two_ne_zero, zpow_natCast, zpow_natCast]
    rw [ofUnits_eq (Nat.pos_of_ne_zero hm) rfl, value, he]
    cases negative <;> simp [signed, signOf, Sign.apply, mul_div_assoc]

theorem value_ofParts (h : bits ≤ l.infinity) :
    value (l.ofParts negative bits) = signed negative (l.magnitude bits) := by
  obtain hi | rfl := Nat.lt_or_eq_of_le h
  case inl => rw [ofParts_of_lt hi, magnitude_of_lt hi, value_stored]
  case inr =>
    rw [ofParts_infinity, magnitude_infinity]
    cases negative <;> rfl

end Magnitude

-- What is read from where numbers are stored is a number of the format.
def IsNumber (l : Layout) (f : UnpackedFloat) : Prop :=
  ∃ negative, ∃ bits ≤ l.infinity, f = l.ofParts negative bits

-- A magnitude that is rounded.
inductive RoundsTo (l : Layout) : EReal → Nat → Prop where
  | nearest {num den : Nat} (h : 0 < den) :
    RoundsTo l ((num / den : ℝ) : EReal) (l.nearest num den)
  | infinity : RoundsTo l ⊤ l.infinity

-- A number that is rounded.
def Rounds (l : Layout) (r : EReal) (f : UnpackedFloat) : Prop :=
  ∃ negative bits s, l.RoundsTo s bits ∧ r = signed negative s ∧ f = l.ofParts negative bits

-- The format has this number.
def Holds (l : Layout) (r : EReal) : Prop :=
  ∃ f, l.IsNumber f ∧ value f = r

section Rounding

theorem nearest_le_infinity : l.nearest num den ≤ l.infinity := by
  rw [nearest_def]
  exact Nat.min_le_right ..

theorem RoundsTo.le_infinity (h : l.RoundsTo r bits) : bits ≤ l.infinity := by
  cases h
  case nearest  => exact nearest_le_infinity
  case infinity => exact Nat.le_refl _

theorem RoundsTo.nonneg (h : l.RoundsTo r bits) : 0 ≤ r := by
  cases h
  case nearest  => exact EReal.coe_nonneg.mpr (by positivity)
  case infinity => exact le_top

theorem Rounds.isNumber (h : l.Rounds r f) : l.IsNumber f := by
  obtain ⟨negative, bits, s, hs, -, rfl⟩ := h
  exact ⟨negative, bits, hs.le_infinity, rfl⟩

theorem IsNumber.ne_notANumber (h : l.IsNumber f) : f ≠ .notANumber := by
  obtain ⟨negative, bits, hb, rfl⟩ := h
  obtain hi | rfl := Nat.lt_or_eq_of_le hb
  case inl =>
    rw [ofParts_of_lt hi]
    obtain ⟨-, hs⟩ | ⟨_, _, _, hs⟩ := @stored_zero_or_finite l bits (signOf negative)
    all_goals simp [hs]
  case inr => simp [ofParts_infinity]

namespace Describes

variable (h : l.Describes spec)
include h

theorem le_of_roundsTo (hb : l.RoundsTo r bits) (hb' : l.RoundsTo r' bits') (hr : r ≤ r') :
    bits ≤ bits' := by
  cases hb'
  case infinity => exact hb.le_infinity
  case nearest num' den' hden' =>
    cases hb
    case infinity => exact absurd hr (not_le.mpr (EReal.coe_lt_top _))
    case nearest num den hden =>
      have hd : (0 : ℝ) < den := Nat.cast_pos.mpr hden
      have hd' : (0 : ℝ) < den' := Nat.cast_pos.mpr hden'
      rw [EReal.coe_le_coe_iff, div_le_div_iff₀ hd hd'] at hr
      exact nearest_le_nearest h.precision_pos hden hden' (by exact_mod_cast hr)

theorem roundsTo_magnitude (hb : bits ≤ l.infinity) : l.RoundsTo (l.magnitude bits) bits := by
  obtain hi | rfl := Nat.lt_or_eq_of_le hb
  case inl =>
    have hr : l.RoundsTo ((l.units bits / (2 ^ l.unit : Nat) : ℝ) : EReal) _ :=
      .nearest (Nat.two_pow_pos l.unit)
    rw [nearest_units h.precision_pos hb] at hr
    rw [magnitude_of_lt hi]
    exact_mod_cast hr
  case inr =>
    rw [magnitude_infinity]
    exact .infinity

theorem magnitude_zero : l.magnitude 0 = 0 := by
  rw [magnitude_of_lt h.infinity_pos, units_zero, Nat.cast_zero, zero_div, EReal.coe_zero]

theorem roundsTo_zero : l.RoundsTo 0 0 :=
  h.magnitude_zero ▸ h.roundsTo_magnitude (Nat.zero_le _)

-- A number of the format is what it is rounded to.
theorem rounds_value (hf : l.IsNumber f) : l.Rounds (value f) f := by
  obtain ⟨negative, bits, hb, rfl⟩ := hf
  exact ⟨negative, bits, _, h.roundsTo_magnitude hb, value_ofParts hb, rfl⟩

-- Rounding is monotone.
theorem value_le_value (hf : l.Rounds r f) (hg : l.Rounds r' g) (hr : r ≤ r') :
    value f ≤ value g := by
  obtain ⟨p, a, s, ha, rfl, rfl⟩ := hf
  obtain ⟨q, b, t, hb, rfl, rfl⟩ := hg
  rw [value_ofParts ha.le_infinity, value_ofParts hb.le_infinity]
  cases p
  case false =>
    cases q
    case false => exact magnitude_le_magnitude (h.le_of_roundsTo ha hb hr) hb.le_infinity
    case true =>
      -- There is only zero that is at least zero and at most zero.
      have hs : s ≤ 0 := le_trans hr (EReal.neg_le_zero.mpr hb.nonneg)
      have ht : t ≤ 0 := EReal.neg_nonneg.mp (le_trans ha.nonneg hr)
      have ha : a = 0 := Nat.le_zero.mp (h.le_of_roundsTo ha h.roundsTo_zero hs)
      have hb : b = 0 := Nat.le_zero.mp (h.le_of_roundsTo hb h.roundsTo_zero ht)
      rw [ha, hb, h.magnitude_zero]
      exact le_of_eq neg_zero.symm
  case true =>
    cases q
    case false => exact le_trans (EReal.neg_le_zero.mpr magnitude_nonneg) magnitude_nonneg
    case true =>
      have hr := EReal.neg_le_neg_iff.mp hr
      exact EReal.neg_le_neg_iff.mpr
        (magnitude_le_magnitude (h.le_of_roundsTo hb ha hr) ha.le_infinity)

theorem value_le_of_holds (hf : l.Rounds r f) (hs : l.Holds r') (hr : r ≤ r') : value f ≤ r' := by
  obtain ⟨g, hg, rfl⟩ := hs
  exact h.value_le_value hf (h.rounds_value hg) hr

theorem le_value_of_holds (hf : l.Rounds r f) (hs : l.Holds r') (hr : r' ≤ r) : r' ≤ value f := by
  obtain ⟨g, hg, rfl⟩ := hs
  exact h.value_le_value (h.rounds_value hg) hf hr

theorem value_eq_of_holds (hf : l.Rounds r f) (hr : l.Holds r) : value f = r :=
  le_antisymm (h.value_le_of_holds hf hr (le_refl r)) (h.le_value_of_holds hf hr (le_refl r))

theorem isNumber_unpack {b : BitVec spec.numBits} (hb : UnpackedFloat.unpack spec b ≠ .notANumber) :
    l.IsNumber (UnpackedFloat.unpack spec b) := by
  rw [h.unpack_eq] at hb ⊢
  refine ⟨_, _, Nat.not_lt.mp fun hlt => hb (ofParts_of_gt hlt), rfl⟩

theorem rounds_reread (hf : l.IsNumber f) : l.Rounds (value f) (reread spec f) := by
  have hr := h.rounds_value hf
  obtain ⟨negative, bits, hb, rfl⟩ := hf
  rwa [h.reread_ofParts hb]

-- The format has the fractions of a short numerator and a small power of two.
theorem holds_div_two_pow {m i : Nat} (hm : m < 2 * l.half) (hi : i ≤ l.unit) :
    l.Holds ((m / 2 ^ i : ℝ) : EReal) := by
  obtain ⟨bits, hlt, hb⟩ := h.exists_units_scaled hm (Nat.sub_le l.unit i)
  refine ⟨_, ⟨false, bits, Nat.le_of_lt hlt, rfl⟩, ?_⟩
  have he : (2 : ℝ) ^ l.unit = 2 ^ (l.unit - i) * 2 ^ i := by rw [← pow_add, Nat.sub_add_cancel hi]
  have hpow : (2 : ℝ) ^ (l.unit - i) ≠ 0 := by positivity
  rw [value_ofParts (Nat.le_of_lt hlt), magnitude_of_lt hlt, hb, he]
  push_cast
  rw [mul_comm, mul_div_mul_left _ _ hpow]
  rfl

theorem holds_natCast {m : Nat} (hm : m < 2 * l.half) : l.Holds ((m : ℝ) : EReal) := by
  have hd := h.holds_div_two_pow hm (Nat.zero_le _)
  rwa [pow_zero, div_one] at hd

-- It also has their multiples by a power of two that is not too large.
theorem holds_mul_two_pow {m i : Nat} (hm : m < 2 * l.half)
    (hi : i + l.unit + 1 ≤ 2 ^ spec.exponentBits - 2) :
    l.Holds ((m * 2 ^ i : ℝ) : EReal) := by
  obtain ⟨bits, hlt, hb⟩ := h.exists_units_lt hm hi
  refine ⟨_, ⟨false, bits, Nat.le_of_lt hlt, rfl⟩, ?_⟩
  have hpow : (2 : ℝ) ^ l.unit ≠ 0 := by positivity
  rw [value_ofParts (Nat.le_of_lt hlt), magnitude_of_lt hlt, hb, Nat.cast_mul, Nat.cast_pow,
    Nat.cast_ofNat, pow_add, ← mul_assoc, mul_div_cancel_right₀ _ hpow]
  rfl

end Describes

theorem neg_signOf : -signOf p = signOf (!p) := by
  cases p <;> rfl

theorem neg_stored : (l.stored (signOf p) a).neg = l.stored (signOf (!p)) a := by
  obtain ⟨m, k, hs⟩ := l.exists_split a
  rw [stored_eq hs, stored_eq hs, ofUnits, ofUnits]
  split <;> rw [UnpackedFloat.neg, neg_signOf]

theorem IsNumber.neg (hf : l.IsNumber f) : l.IsNumber f.neg := by
  obtain ⟨negative, bits, hb, rfl⟩ := hf
  refine ⟨!negative, bits, hb, ?_⟩
  obtain hi | rfl := Nat.lt_or_eq_of_le hb
  case inl => rw [ofParts_of_lt hi, ofParts_of_lt hi, neg_stored]
  case inr => rw [ofParts_infinity, ofParts_infinity, UnpackedFloat.neg, neg_signOf]

theorem Holds.neg (hr : l.Holds r) : l.Holds (-r) := by
  obtain ⟨f, hf, rfl⟩ := hr
  exact ⟨f.neg, hf.neg, value_neg f⟩

end Rounding

theorem IsNumber.stored_or_infinity (hf : l.IsNumber f) :
    (∃ p, ∃ a < l.infinity, f = l.stored (signOf p) a) ∨ ∃ p, f = .infinity (signOf p) := by
  obtain ⟨p, a, ha, rfl⟩ := hf
  obtain hi | rfl := Nat.lt_or_eq_of_le ha
  case inl => exact .inl ⟨p, a, hi, ofParts_of_lt hi⟩
  case inr => exact .inr ⟨p, ofParts_infinity⟩

theorem isNumber_stored (ha : a < l.infinity) : l.IsNumber (l.stored (signOf p) a) :=
  ⟨p, a, Nat.le_of_lt ha, (ofParts_of_lt ha).symm⟩

theorem isNumber_infinity (p : Bool) : l.IsNumber (.infinity (signOf p)) :=
  ⟨p, l.infinity, Nat.le_refl _, ofParts_infinity.symm⟩

theorem value_infinity (p : Bool) : value (.infinity (signOf p)) = signed p ⊤ := by
  cases p <;> rfl

theorem units_div_pos (ha : a ≠ 0) : (0 : ℝ) < l.units a / 2 ^ l.unit := by
  have hu : (0 : ℝ) < l.units a := Nat.cast_pos.mpr <|
    l.units_zero ▸ l.units_strictMono (Nat.pos_of_ne_zero ha)
  positivity

theorem value_stored_eq_zero_iff : value (l.stored (signOf p) a) = 0 ↔ a = 0 := by
  constructor
  case mpr =>
    rintro rfl
    rw [stored_zero]
    rfl
  case mp =>
    intro h
    by_contra ha
    have hne := ne_of_gt (@units_div_pos l a ha)
    rw [value_stored] at h
    cases p
    case false => exact hne (EReal.coe_eq_zero.mp h)
    case true  => exact hne (EReal.coe_eq_zero.mp (EReal.neg_eq_zero_iff.mp h))


theorem value_stored_true :
    value (l.stored (signOf true) a) = -value (l.stored (signOf false) a) := by
  rw [value_stored, value_stored]
  rfl

theorem value_stored_nonneg : 0 ≤ value (l.stored (signOf false) a) := by
  rw [value_stored]
  exact EReal.coe_nonneg.mpr (by positivity)

theorem lt_of_value_stored_lt
    (h : value (l.stored (signOf false) a) < value (l.stored (signOf false) b)) : a < b := by
  rw [value_stored, value_stored] at h
  have h := (div_lt_div_iff_of_pos_right (by positivity)).mp (EReal.coe_lt_coe_iff.mp h)
  exact l.units_strictMono.lt_iff_lt.mp (Nat.cast_lt.mp h)

-- A whole number of units, with its sign.
theorem value_stored_eq_apply : value (l.stored (signOf p) a) =
    (((signOf p).apply (l.units a) / 2 ^ l.unit : ℝ) : EReal) := by
  rw [value_stored]
  cases p <;> simp [signed, signOf, Sign.apply, neg_div]

-- Only zero is stored in two ways.
theorem eq_of_value_stored_eq (h : value (l.stored (signOf p) a) = value (l.stored (signOf q) b)) :
    a = b ∧ (p = q ∨ a = 0) := by
  have hunits : (signOf p).apply (l.units a) = (signOf q).apply (l.units b) := by
    rw [value_stored_eq_apply, value_stored_eq_apply, EReal.coe_eq_coe_iff,
      div_left_inj' (by positivity)] at h
    exact_mod_cast h
  have hzero (c : Nat) (hc : l.units c = 0) : c = 0 :=
    l.units_strictMono.injective (hc.trans l.units_zero.symm)
  cases p <;> cases q <;> simp [signOf, Sign.apply] at hunits
  case false.false => exact ⟨l.units_strictMono.injective hunits, .inl rfl⟩
  case true.true   => exact ⟨l.units_strictMono.injective hunits, .inl rfl⟩
  all_goals
    have ha := hzero a (by omega)
    have hb := hzero b (by omega)
    exact ⟨ha.trans hb.symm, .inr ha⟩

section Comparison

open FloatOrder

theorem compare_of_value_lt (hf : l.IsNumber f) (hg : l.IsNumber g) (h : value f < value g) :
    f.compare g = some .lt := by
  obtain ⟨p, a, -, rfl⟩ | ⟨p, rfl⟩ := hf.stored_or_infinity
  case inl =>
    obtain ⟨q, b, -, rfl⟩ | ⟨q, rfl⟩ := hg.stored_or_infinity
    case inl =>
      cases p <;> cases q
      case false.false => exact compare_stored_of_lt (lt_of_value_stored_lt h)
      case true.true =>
        rw [value_stored_true, value_stored_true] at h
        rw [← compare_swap,
          compare_stored_of_lt (lt_of_value_stored_lt (EReal.neg_lt_neg_iff.mp h))]
        rfl
      case true.false =>
        obtain ⟨ha, hs⟩ | ⟨_, _, _, hs⟩ := @stored_zero_or_finite l a (signOf true)
        all_goals obtain ⟨hb, ht⟩ | ⟨_, _, _, ht⟩ := @stored_zero_or_finite l b (signOf false)
        case inl.inl =>
          rw [hs, ht] at h
          exact absurd h (lt_irrefl _)
        all_goals
          rw [hs, ht]
          rfl
      case false.true =>
        rw [value_stored_true] at h
        have hb := EReal.neg_le_zero.mpr (@value_stored_nonneg l b)
        exact absurd h (not_lt.mpr (le_trans hb value_stored_nonneg))
    case inr =>
      cases q
      case false =>
        obtain ⟨-, hs⟩ | ⟨_, _, _, hs⟩ := @stored_zero_or_finite l a (signOf p) <;> rw [hs] <;> rfl
      case true => exact absurd h not_lt_bot
  case inr =>
    cases p
    case false => exact absurd h not_top_lt
    case true =>
      obtain ⟨q, b, -, rfl⟩ | ⟨q, rfl⟩ := hg.stored_or_infinity
      case inl =>
        obtain ⟨-, hs⟩ | ⟨_, _, _, hs⟩ := @stored_zero_or_finite l b (signOf q) <;> rw [hs] <;> rfl
      case inr =>
        cases q
        case false => rfl
        case true  => exact absurd h not_lt_bot

theorem compare_of_value_eq (hf : l.IsNumber f) (hg : l.IsNumber g) (h : value f = value g) :
    f.compare g = some .eq := by
  obtain ⟨p, a, -, rfl⟩ | ⟨p, rfl⟩ := hf.stored_or_infinity
  case inl =>
    obtain ⟨q, b, -, rfl⟩ | ⟨q, rfl⟩ := hg.stored_or_infinity
    case inl =>
      obtain ⟨rfl, rfl | rfl⟩ := eq_of_value_stored_eq h
      case inl => exact compare_stored_self
      case inr =>
        rw [stored_zero, stored_zero]
        rfl
    case inr =>
      rw [value_stored_eq_apply] at h
      cases q
      case false => exact absurd h (EReal.coe_ne_top _)
      case true  => exact absurd h (EReal.coe_ne_bot _)
  case inr =>
    obtain ⟨q, b, -, rfl⟩ | ⟨q, rfl⟩ := hg.stored_or_infinity
    case inl =>
      rw [value_stored_eq_apply] at h
      cases p
      case false => exact absurd h.symm (EReal.coe_ne_top _)
      case true  => exact absurd h.symm (EReal.coe_ne_bot _)
    case inr => cases p <;> cases q <;> simp_all [value, signOf, UnpackedFloat.compare, compare]

theorem compare_eq_lt_iff (hf : l.IsNumber f) (hg : l.IsNumber g) :
    f.compare g = some .lt ↔ value f < value g := by
  refine ⟨fun h => ?_, compare_of_value_lt hf hg⟩
  by_contra hle
  obtain hlt | heq := lt_or_eq_of_le (not_lt.mp hle)
  case inl =>
    rw [← compare_swap, compare_of_value_lt hg hf hlt] at h
    simp at h
  case inr =>
    rw [compare_of_value_eq hf hg heq.symm] at h
    simp at h

theorem compare_eq_eq_iff (hf : l.IsNumber f) (hg : l.IsNumber g) :
    f.compare g = some .eq ↔ value f = value g := by
  obtain h | h | h := lt_trichotomy (value f) (value g)
  case inl     => simp [compare_of_value_lt hf hg h, h.ne]
  case inr.inl => simp [compare_of_value_eq hf hg h, h]
  case inr.inr =>
    rw [← compare_swap, compare_of_value_lt hg hf h]
    simp [h.ne']

theorem any_isLE_compare_iff (hf : l.IsNumber f) (hg : l.IsNumber g) :
    (f.compare g).any Ordering.isLE ↔ value f ≤ value g := by
  obtain h | h | h := lt_trichotomy (value f) (value g)
  case inl     => simp [compare_of_value_lt hf hg h, h.le]
  case inr.inl => simp [compare_of_value_eq hf hg h, h]
  case inr.inr =>
    rw [← compare_swap, compare_of_value_lt hg hf h]
    simp [h]

end Comparison

end Layout

end PagePrep
