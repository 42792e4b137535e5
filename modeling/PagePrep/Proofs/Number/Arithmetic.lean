import Mathlib
import PagePrep.Proofs.Number.Value

-- Sums, differences, products and quotients of numbers are those of their values, rounded.

namespace PagePrep

open Float.Model Float.Model.UnpackedFloat

namespace Layout

variable {l : Layout} {spec : Format} {p q : Bool} {a b : Nat} {f g : UnpackedFloat}

theorem exists_stored_eq_finite (s : Sign) (ha : a ≠ 0) :
    ∃ m e hm, l.stored s a = .finite s m e hm :=
  stored_zero_or_finite.resolve_left fun hz => ha hz.left

theorem mul_infinity (ha : a ≠ 0) :
    UnpackedFloat.mul spec (l.stored (signOf p) a) (.infinity (signOf q)) =
      .infinity (signOf (p ^^ q)) := by
  obtain ⟨m, e, hm, hs⟩ := exists_stored_eq_finite (signOf p) ha
  rw [hs, UnpackedFloat.mul, signOf_mul_signOf]

theorem infinity_mul (ha : a ≠ 0) :
    UnpackedFloat.mul spec (.infinity (signOf p)) (l.stored (signOf q) a) =
      .infinity (signOf (p ^^ q)) := by
  obtain ⟨m, e, hm, hs⟩ := exists_stored_eq_finite (signOf q) ha
  rw [hs, UnpackedFloat.mul, signOf_mul_signOf]

theorem add_zero_stored {s : Sign} (ha : a ≠ 0) :
    UnpackedFloat.add spec (l.stored (signOf p) a) (.zero s) = l.stored (signOf p) a := by
  obtain ⟨m, e, hm, hs⟩ := exists_stored_eq_finite (signOf p) ha
  rw [hs, UnpackedFloat.add]
  all_goals simp

theorem zero_add_stored {s : Sign} (ha : a ≠ 0) :
    UnpackedFloat.add spec (.zero s) (l.stored (signOf p) a) = l.stored (signOf p) a := by
  obtain ⟨m, e, hm, hs⟩ := exists_stored_eq_finite (signOf p) ha
  rw [hs, UnpackedFloat.add]
  all_goals simp

theorem add_infinity : UnpackedFloat.add spec (l.stored (signOf p) a) (.infinity (signOf q)) =
    .infinity (signOf q) := by
  obtain ⟨-, hs⟩ | ⟨m, e, hm, hs⟩ := @stored_zero_or_finite l a (signOf p) <;> rw [hs] <;> rfl

theorem infinity_add : UnpackedFloat.add spec (.infinity (signOf p)) (l.stored (signOf q) a) =
    .infinity (signOf p) := by
  obtain ⟨-, hs⟩ | ⟨m, e, hm, hs⟩ := @stored_zero_or_finite l a (signOf q) <;> rw [hs] <;> rfl

theorem zero_add_zero : UnpackedFloat.add spec (.zero (signOf p)) (.zero (signOf q)) =
    .zero (signOf (p && q)) := by
  cases p <;> cases q <;> rfl

theorem infinity_add_self : UnpackedFloat.add spec (.infinity (signOf p)) (.infinity (signOf p)) =
    .infinity (signOf p) := by
  cases p <;> rfl

theorem coe_add_signed_top (r : ℝ) (p : Bool) : (r : EReal) + signed p ⊤ = signed p ⊤ := by
  cases p <;> simp [signed]

theorem signed_top_add_self (p : Bool) : signed p ⊤ + signed p ⊤ = signed p ⊤ := by
  cases p <;> simp [signed]

theorem coe_div_eq_signed (z : Int) (d : ℝ) :
    ((z / d : ℝ) : EReal) = signed (z < 0) ((z.natAbs / d : ℝ) : EReal) := by
  obtain hz | hz := lt_or_ge z 0
  case inl =>
    have he : ((z.natAbs : ℤ) : ℝ) = ((-z : ℤ) : ℝ) :=
      congrArg Int.cast (Int.ofNat_natAbs_of_nonpos hz.le)
    rw [signed, if_pos (by simpa using hz), ← Int.cast_natCast, he, Int.cast_neg, neg_div,
      EReal.coe_neg, neg_neg]
  case inr =>
    have he : ((z.natAbs : ℤ) : ℝ) = z := congrArg Int.cast (Int.natAbs_of_nonneg hz)
    rw [signed, if_neg (by simpa using hz), ← Int.cast_natCast, he]

-- A difference is the sum with what is negated.
theorem sub_eq_add (f g : UnpackedFloat) :
    UnpackedFloat.sub spec f g = UnpackedFloat.add spec f g.neg := by
  cases f <;> cases g <;>
    simp [UnpackedFloat.sub, UnpackedFloat.add, UnpackedFloat.neg, apply_neg, Int.sub_eq_add_neg]

namespace Describes

variable (h : l.Describes spec)
include h

theorem isNumber_zero (p : Bool) : l.IsNumber (.zero (signOf p)) :=
  stored_zero ▸ isNumber_stored h.infinity_pos

theorem rounds_infinity (p : Bool) : l.Rounds (signed p ⊤) (reread spec (.infinity (signOf p))) :=
  value_infinity p ▸ h.rounds_reread (isNumber_infinity p)

-- Nothing is made of zero and infinity.
theorem rounds_mul (hf : l.IsNumber f) (hg : l.IsNumber g)
    (hfg : value f = 0 → value g ≠ ⊤ ∧ value g ≠ ⊥)
    (hgf : value g = 0 → value f ≠ ⊤ ∧ value f ≠ ⊥) :
    l.Rounds (value f * value g) (reread spec (.mul spec f g)) := by
  obtain ⟨p, a, ha, rfl⟩ | ⟨p, rfl⟩ := hf.stored_or_infinity
  case inl =>
    obtain ⟨q, b, hb, rfl⟩ | ⟨q, rfl⟩ := hg.stored_or_infinity
    case inl =>
      refine ⟨p ^^ q, _, _, .nearest (by positivity), ?_, h.reread_mul⟩
      rw [value_stored, value_stored, signed_mul_signed, ← EReal.coe_mul, div_mul_div_comm]
      push_cast
      rfl
    case inr =>
      have ha : a ≠ 0 := fun hz => by
        have hne := hfg (value_stored_eq_zero_iff.mpr hz)
        cases q <;> simp [value_infinity, signed] at hne
      rw [mul_infinity ha, value_stored, value_infinity, signed_mul_signed,
        EReal.coe_mul_top_of_pos (units_div_pos ha)]
      exact h.rounds_infinity _
  case inr =>
    obtain ⟨q, b, hb, rfl⟩ | ⟨q, rfl⟩ := hg.stored_or_infinity
    case inl =>
      have hb : b ≠ 0 := fun hz => by
        have hne := hgf (value_stored_eq_zero_iff.mpr hz)
        cases p <;> simp [value_infinity, signed] at hne
      rw [infinity_mul hb, value_stored, value_infinity, signed_mul_signed,
        EReal.top_mul_coe_of_pos (units_div_pos hb)]
      exact h.rounds_infinity _
    case inr =>
      have hm : UnpackedFloat.mul spec (.infinity (signOf p)) (.infinity (signOf q)) =
          .infinity (signOf (p ^^ q)) := congrArg UnpackedFloat.infinity (signOf_mul_signOf p q)
      rw [hm, value_infinity, value_infinity, signed_mul_signed, EReal.top_mul_top]
      exact h.rounds_infinity _

theorem rounds_div (hf : l.IsNumber f) (hg : l.IsNumber g) (hft : value f ≠ ⊤) (hfb : value f ≠ ⊥)
    (hgt : value g ≠ ⊤) (hgb : value g ≠ ⊥) (hz : value g ≠ 0) :
    l.Rounds (value f / value g) (reread spec (.div spec f g)) := by
  obtain ⟨p, a, ha, rfl⟩ | ⟨p, rfl⟩ := hf.stored_or_infinity
  case inr => cases p <;> simp [value_infinity, signed] at hft hfb
  obtain ⟨q, b, hb, rfl⟩ | ⟨q, rfl⟩ := hg.stored_or_infinity
  case inr => cases q <;> simp [value_infinity, signed] at hgt hgb
  have hb : b ≠ 0 := mt value_stored_eq_zero_iff.mpr hz
  have hu : 0 < l.units b := l.units_zero ▸ l.units_strictMono (Nat.pos_of_ne_zero hb)
  refine ⟨p ^^ q, _, _, .nearest hu, ?_, h.reread_div hb⟩
  rw [value_stored, value_stored]
  have hpow : (2 : ℝ) ^ l.unit ≠ 0 := by positivity
  have he : (l.units a / 2 ^ l.unit / (l.units b / 2 ^ l.unit) : ℝ) = l.units a / l.units b :=
    div_div_div_cancel_right₀ hpow ..
  rw [← he]
  cases p <;> cases q <;> simp [signed, ← EReal.coe_div, ← EReal.coe_neg, neg_div, div_neg]

theorem rounds_add (hf : l.IsNumber f) (hg : l.IsNumber g)
    (hb : value f ≠ ⊥ ∨ value g ≠ ⊤) (ht : value f ≠ ⊤ ∨ value g ≠ ⊥) :
    l.Rounds (value f + value g) (reread spec (.add spec f g)) := by
  obtain ⟨p, a, hai, rfl⟩ | ⟨p, rfl⟩ := hf.stored_or_infinity
  case inl =>
    obtain ⟨q, b, hbi, rfl⟩ | ⟨q, rfl⟩ := hg.stored_or_infinity
    case inl =>
      by_cases ha : a = 0
      case pos =>
        rw [ha, stored_zero, value, zero_add]
        by_cases hz : b = 0
        case pos =>
          rw [hz, stored_zero, zero_add_zero]
          change l.Rounds (value (.zero (signOf (p && q)))) _
          exact h.rounds_reread (h.isNumber_zero _)
        case neg =>
          rw [zero_add_stored hz]
          exact h.rounds_reread (isNumber_stored hbi)
      case neg =>
        by_cases hz : b = 0
        case pos =>
          rw [hz, stored_zero, add_zero_stored ha, value, add_zero]
          exact h.rounds_reread (isNumber_stored hai)
        case neg =>
          refine ⟨_, _, _, .nearest (Nat.two_pow_pos l.unit), ?_, h.reread_add ha hz⟩
          rw [value_stored_eq_apply, value_stored_eq_apply, ← EReal.coe_add, ← add_div,
            ← Int.cast_add, coe_div_eq_signed]
          push_cast
          rfl
    case inr =>
      rw [add_infinity, value_stored_eq_apply, value_infinity, coe_add_signed_top]
      exact h.rounds_infinity q
  case inr =>
    obtain ⟨q, b, hbi, rfl⟩ | ⟨q, rfl⟩ := hg.stored_or_infinity
    case inl =>
      rw [infinity_add, value_stored_eq_apply, value_infinity, add_comm, coe_add_signed_top]
      exact h.rounds_infinity p
    case inr =>
      -- Neither of the two cancels the other.
      obtain rfl : p = q := by cases p <;> cases q <;> simp [value_infinity, signed] at hb ht ⊢
      rw [infinity_add_self, value_infinity, signed_top_add_self]
      exact h.rounds_infinity p

theorem rounds_sub (hf : l.IsNumber f) (hg : l.IsNumber g)
    (hb : value f ≠ ⊥ ∨ value g ≠ ⊥) (ht : value f ≠ ⊤ ∨ value g ≠ ⊤) :
    l.Rounds (value f - value g) (reread spec (.sub spec f g)) := by
  rw [sub_eq_add_neg, ← value_neg, sub_eq_add]
  refine h.rounds_add hf hg.neg ?_ ?_
  case refine_1 => rwa [value_neg, Ne.eq_def (-_), EReal.neg_eq_top_iff]
  case refine_2 => rwa [value_neg, Ne.eq_def (-_), EReal.neg_eq_bot_iff]

theorem rounds_ofNat (n : Nat) : l.Rounds ((n : ℝ) : EReal) (reread spec (.ofNat spec n)) := by
  refine ⟨false, _, _, .nearest Nat.one_pos, ?_, h.reread_ofNat n⟩
  simp [signed]

end Describes

-- A number below one is so by a unit at least.
theorem IsNumber.le_one_sub_value (hf : l.IsNumber f) (h : value f < 1) :
    ((1 / 2 ^ l.unit : ℝ) : EReal) ≤ 1 - value f := by
  obtain ⟨p, a, -, rfl⟩ | ⟨p, rfl⟩ := hf.stored_or_infinity
  case inl =>
    have hpos : (0 : ℝ) < 2 ^ l.unit := by positivity
    rw [value_stored_eq_apply, ← EReal.coe_one, EReal.coe_lt_coe_iff, div_lt_one hpos] at h
    have hz : (signOf p).apply (l.units a) + 1 ≤ (2 : Int) ^ l.unit :=
      Int.add_one_le_of_lt (by exact_mod_cast h)
    rw [value_stored_eq_apply, ← EReal.coe_one, ← EReal.coe_sub, EReal.coe_le_coe_iff,
      le_sub_iff_add_le, ← add_div, div_le_one hpos, add_comm]
    exact_mod_cast hz
  case inr =>
    cases p
    case false => exact absurd h not_top_lt
    case true  => exact le_top

end Layout

end PagePrep
