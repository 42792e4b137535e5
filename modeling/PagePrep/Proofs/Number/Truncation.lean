import Mathlib
import PagePrep.Proofs.Number.Native

-- A number is cut down to a whole one that is as large as its value allows. So a whole number times
-- another number, rounded and then cut down, does not get smaller if the other number gets larger,
-- and is the number itself if the other one is one.

namespace PagePrep.Truncation

open Layout Float.Model Float.Model.UnpackedFloat FloatOrder

section Cutting

variable {l : Layout} {m n k bits : Nat} {lo hi : Int} {f g : UnpackedFloat}

theorem mantissa_shiftRight : (ExtendedMantissa.ofMantissaAndAccuracy m .exact >>> n).mantissa =
    m / 2 ^ n :=
  ((Cut.exact m).shiftRight n).mantissa.trans (by rw [Nat.one_mul])

-- What is behind the point is cut off.
theorem roundToInt_eq :
    roundToInt .positive m ((k : Int) - l.unit) = (m * 2 ^ k / 2 ^ l.unit : Nat) := by
  have hn : ((k : Int) - l.unit - 0).toNat = k - l.unit := by omega
  have hd : (0 - ((k : Int) - l.unit - (k - l.unit : Nat))).toNat = l.unit - k := by omega
  have hq : m <<< (k - l.unit) / 2 ^ (l.unit - k) = m * 2 ^ k / 2 ^ l.unit := by
    rw [Nat.shiftLeft_eq]
    obtain h | h := Nat.le_total k l.unit
    case inl =>
      have hp : (2 : Nat) ^ l.unit = 2 ^ (l.unit - k) * 2 ^ k := by rw [← pow_add]; congr 1; omega
      rw [hp, Nat.mul_div_mul_right _ _ (Nat.two_pow_pos k), Nat.sub_eq_zero_of_le h, pow_zero,
        Nat.mul_one]
    case inr =>
      have hp : (2 : Nat) ^ k = 2 ^ (k - l.unit) * 2 ^ l.unit := by rw [← pow_add]; congr 1; omega
      rw [hp, ← Nat.mul_assoc, Nat.mul_div_cancel _ (Nat.two_pow_pos _), Nat.sub_eq_zero_of_le h,
        pow_zero, Nat.div_one]
  simp only [roundToInt, decreaseExponent, shiftToExponent, hn, hd, mantissa_shiftRight, hq]
  rfl

theorem toInt_stored : (l.stored (signOf false) bits).toInt lo hi =
    (l.units bits / 2 ^ l.unit : Nat) := by
  obtain ⟨m, k, hs⟩ := l.exists_split bits
  rw [signOf_false, stored_eq hs, hs.units_eq]
  by_cases hz : m = 0
  case pos =>
    subst hz
    rw [Nat.zero_mul, Nat.zero_div]
    rfl
  case neg => rw [ofUnits_eq (Nat.pos_of_ne_zero hz) rfl, toInt, roundToInt_eq]

theorem toNat_toInt_stored_true : ((l.stored (signOf true) bits).toInt lo hi).toNat = 0 := by
  obtain ⟨-, hs⟩ | ⟨m, e, hm, hs⟩ := @stored_zero_or_finite l bits (signOf true)
  all_goals rw [hs]
  case inl => rfl
  case inr => exact Int.toNat_of_nonpos (Int.neg_nonpos_of_nonneg (Int.natCast_nonneg _))

-- The whole number is as large as the value allows, but for the largest one.
theorem le_toNat_toInt (hf : l.IsNumber f) (h : ((n : ℝ) : EReal) ≤ value f) (hn : (n : Int) ≤ hi) :
    n ≤ (f.toInt lo hi).toNat := by
  obtain ⟨negative, a, -, rfl⟩ | ⟨negative, rfl⟩ := hf.stored_or_infinity
  all_goals cases negative
  case inl.false =>
    rw [value_stored, signed, if_neg Bool.false_ne_true, EReal.coe_le_coe_iff,
      le_div_iff₀ (by positivity)] at h
    rw [toInt_stored, Int.toNat_natCast]
    exact (Nat.le_div_iff_mul_le (Nat.two_pow_pos _)).mpr (by exact_mod_cast h)
  case inl.true =>
    have h := le_trans h (value_stored_true.trans_le (EReal.neg_le_zero.mpr value_stored_nonneg))
    have h : n = 0 := Nat.cast_nonpos.mp (EReal.coe_nonpos.mp h)
    exact h ▸ Nat.zero_le _
  case inr.false =>
    have hi : n ≤ hi.toNat := (Int.le_toNat (by omega)).mpr hn
    exact hi
  case inr.true => exact absurd h (not_le.mpr (EReal.bot_lt_coe _))

theorem toNat_toInt_le (hf : l.IsNumber f) (h : value f < ((n + 1 : ℝ) : EReal)) (hlo : lo ≤ 0) :
    (f.toInt lo hi).toNat ≤ n := by
  obtain ⟨negative, a, -, rfl⟩ | ⟨negative, rfl⟩ := hf.stored_or_infinity
  all_goals cases negative
  case inl.false =>
    rw [value_stored, signed, if_neg Bool.false_ne_true, EReal.coe_lt_coe_iff,
      div_lt_iff₀ (by positivity)] at h
    rw [toInt_stored, Int.toNat_natCast]
    exact Nat.lt_succ_iff.mp ((Nat.div_lt_iff_lt_mul (Nat.two_pow_pos _)).mpr (by exact_mod_cast h))
  case inl.true =>
    rw [toNat_toInt_stored_true]
    exact Nat.zero_le _
  case inr.false => exact absurd h not_top_lt
  case inr.true =>
    have hz : (UnpackedFloat.toInt lo hi (.infinity (signOf true))).toNat = 0 :=
      Int.toNat_of_nonpos hlo
    rw [hz]
    exact Nat.zero_le _

end Cutting

section Bytes

variable {l : Layout} {n : Nat} {f : UnpackedFloat}

theorem toNat_ofNatClamp_byte : (UInt8.ofNatClamp n).toNat = min n (UInt8.size - 1) := by
  rw [UInt8.ofNatClamp]
  split
  case isTrue h  => exact (Nat.min_eq_left (Nat.le_sub_one_of_lt h)).symm
  case isFalse h =>
    rw [Nat.min_eq_right (Nat.le_trans (Nat.sub_le ..) (Nat.not_lt.mp h))]
    rfl

theorem le_toNat_toUInt8 (hf : l.IsNumber f) (h : ((n : ℝ) : EReal) ≤ value f)
    (hn : n < UInt8.size) : n ≤ f.toUInt8.toNat := by
  have hi : (n : Int) ≤ UInt8.size - 1 := Int.le_sub_one_of_lt (by exact_mod_cast hn)
  rw [UnpackedFloat.toUInt8, toNat_ofNatClamp_byte]
  exact Nat.le_min.mpr ⟨le_toNat_toInt hf h hi, Nat.le_sub_one_of_lt hn⟩

theorem toNat_toUInt8_le (hf : l.IsNumber f) (h : value f < ((n + 1 : ℝ) : EReal)) :
    f.toUInt8.toNat ≤ n := by
  rw [UnpackedFloat.toUInt8, toNat_ofNatClamp_byte]
  exact Nat.le_trans (Nat.min_le_left ..) (toNat_toInt_le hf h (Int.le_refl 0))

theorem toInt_ofIntClamp (z : Int) :
    (Int32.ofIntClamp z).toInt = max Int32.minValue.toInt (min z Int32.maxValue.toInt) := by
  have hbounds : Int32.minValue.toInt ≤ Int32.maxValue.toInt := by decide
  rw [Int32.ofIntClamp]
  split
  case isFalse => omega
  case isTrue =>
    split
    case isTrue  => rw [Int32.toInt_ofIntLE]; omega
    case isFalse => omega

-- It is as if a word of 32 bits with a sign were cut down first, and then the byte out of it.
theorem toNat_toUInt8_eq (f : UnpackedFloat) :
    f.toUInt8.toNat = (max 0 (min 255 f.toInt32.toInt)).toNat := by
  rw [UnpackedFloat.toUInt8, toNat_ofNatClamp_byte, UnpackedFloat.toInt32, toInt_ofIntClamp]
  have hmin : Int32.minValue.toInt = -2147483648 := rfl
  have hmax : Int32.maxValue.toInt = 2147483647 := rfl
  have hsize : UInt8.size = 256 := rfl
  cases f
  case infinity s => cases s <;> rfl
  all_goals
    simp only [toInt, hmin, hmax, hsize]
    omega

end Bytes

section Words

variable {l : Layout} {n : Nat} {f g : UnpackedFloat}

theorem toNat_ofNatClamp : (UInt32.ofNatClamp n).toNat = min n (UInt32.size - 1) := by
  rw [UInt32.ofNatClamp]
  split
  case isTrue h  => exact (Nat.min_eq_left (Nat.le_sub_one_of_lt h)).symm
  case isFalse h =>
    rw [Nat.min_eq_right (Nat.le_trans (Nat.sub_le ..) (Nat.not_lt.mp h))]
    rfl

theorem le_toNat_toUInt32 (hf : l.IsNumber f) (h : ((n : ℝ) : EReal) ≤ value f)
    (hn : n < UInt32.size) : n ≤ f.toUInt32.toNat := by
  have hi : (n : Int) ≤ UInt32.size - 1 := Int.le_sub_one_of_lt (by exact_mod_cast hn)
  rw [UnpackedFloat.toUInt32, toNat_ofNatClamp]
  exact Nat.le_min.mpr ⟨le_toNat_toInt hf h hi, Nat.le_sub_one_of_lt hn⟩

theorem toNat_toUInt32_le (hf : l.IsNumber f) (h : value f < ((n + 1 : ℝ) : EReal)) :
    f.toUInt32.toNat ≤ n := by
  rw [UnpackedFloat.toUInt32, toNat_ofNatClamp]
  exact Nat.le_trans (Nat.min_le_left ..) (toNat_toInt_le hf h (Int.le_refl 0))

-- Only what is below zero gets larger when it is cut down.
theorem toNat_toUInt32_le_value (hf : l.IsNumber f) (h : f.toUInt32 ≠ 0) :
    ((f.toUInt32.toNat : ℝ) : EReal) ≤ value f := by
  by_contra hlt
  obtain ⟨n, hn⟩ := Nat.exists_eq_succ_of_ne_zero fun h0 => h (UInt32.toNat_inj.mp h0)
  rw [hn, not_le, Nat.cast_succ] at hlt
  have hle := toNat_toUInt32_le hf hlt
  omega

-- Larger numbers are cut down to larger ones.
theorem toUInt32_le_toUInt32 (hf : l.IsNumber f) (hg : l.IsNumber g) (h : value f ≤ value g) :
    f.toUInt32 ≤ g.toUInt32 := by
  by_cases hz : f.toUInt32 = 0
  case pos => exact hz ▸ UInt32.zero_le
  case neg =>
    exact le_toNat_toUInt32 hg (le_trans (toNat_toUInt32_le_value hf hz) h) (UInt32.toNat_lt _)

end Words

section Product

variable {a : UInt32} {x y : Float}

theorem rounds_toFloat (a : UInt32) :
    double.Rounds ((a.toNat : ℝ) : EReal) a.toFloat.toModel.unpack :=
  describes_double.rounds_ofNat a.toNat

-- A whole number is stored as it is.
theorem holds_toNat (a : UInt32) : double.Holds ((a.toNat : ℝ) : EReal) :=
  describes_double.holds_natCast (Nat.lt_trans a.toNat_lt (by decide))

theorem value_toFloat (a : UInt32) : value a.toFloat.toModel.unpack = ((a.toNat : ℝ) : EReal) :=
  describes_double.value_eq_of_holds (rounds_toFloat a) (holds_toNat a)

theorem rounds_toFloat_mul (ha : a ≠ 0) (hx : double.IsNumber x.toModel.unpack) :
    double.Rounds ((a.toNat : ℝ) * value x.toModel.unpack) (a.toFloat * x).toModel.unpack := by
  have hv := value_toFloat a
  have ha : a.toNat ≠ 0 := fun hz => ha (UInt32.toNat_inj.mp hz)
  have hm := describes_double.rounds_mul (rounds_toFloat a).isNumber hx ?_ ?_
  case refine_1 =>
    intro hz
    rw [hv, EReal.coe_eq_zero, Nat.cast_eq_zero] at hz
    exact absurd hz ha
  case refine_2 => exact fun _ => hv ▸ ⟨EReal.coe_ne_top _, EReal.coe_ne_bot _⟩
  rwa [hv] at hm

theorem toUInt32_mul_notANumber (hx : x.toModel.unpack = .notANumber) :
    (a.toFloat * x).toUInt32 = 0 := by
  have hm : UnpackedFloat.mul .binary64 a.toFloat.toModel.unpack x.toModel.unpack =
      .notANumber := by
    rw [hx]
    cases a.toFloat.toModel.unpack <;> rfl
  have ht : (a.toFloat * x).toUInt32 = UnpackedFloat.toUInt32 (reread .binary64 _) := rfl
  rw [ht, hm]
  rfl

theorem zero_mul_eq {s : Sign} {f : UnpackedFloat} :
    UnpackedFloat.mul .binary64 (.zero s) f = .notANumber ∨
      ∃ t, UnpackedFloat.mul .binary64 (.zero s) f = .zero t := by
  cases f
  case notANumber => exact .inl rfl
  case infinity   => exact .inl rfl
  all_goals exact .inr ⟨_, rfl⟩

theorem toUInt32_zero_mul (x : Float) : ((0 : UInt32).toFloat * x).toUInt32 = 0 := by
  have hz : (0 : UInt32).toFloat.toModel.unpack = .zero .positive := rfl
  have ht : ((0 : UInt32).toFloat * x).toUInt32 = UnpackedFloat.toUInt32 (reread .binary64
      (.mul .binary64 (0 : UInt32).toFloat.toModel.unpack x.toModel.unpack)) := rfl
  rw [ht, hz]
  obtain hm | ⟨t, hm⟩ := @zero_mul_eq .positive x.toModel.unpack <;> rw [hm]
  case inl => rfl
  case inr => cases t <;> rfl

theorem toUInt32_mul_le_mul (h : x ≤ y) : (a.toFloat * x).toUInt32 ≤ (a.toFloat * y).toUInt32 := by
  obtain ⟨hx, hy⟩ := isNumber_of_le h
  by_cases ha : a = 0
  case pos =>
    rw [ha, toUInt32_zero_mul]
    exact UInt32.zero_le
  case neg =>
    have hx := rounds_toFloat_mul ha hx
    have hy := rounds_toFloat_mul ha hy
    have hle := mul_le_mul_of_nonneg_left (value_le_of_le h)
      (EReal.coe_nonneg.mpr (Nat.cast_nonneg a.toNat))
    exact toUInt32_le_toUInt32 hx.isNumber hy.isNumber (describes_double.value_le_value hx hy hle)

theorem toUInt32_mul_one_le : (a.toFloat * 1).toUInt32 ≤ a := by
  by_cases ha : a = 0
  case pos =>
    rw [ha, toUInt32_zero_mul]
    exact UInt32.zero_le
  case neg =>
    have hm := rounds_toFloat_mul ha isNumber_one
    rw [value_one, mul_one] at hm
    have hv := describes_double.value_eq_of_holds hm (holds_toNat a)
    refine UInt32.le_iff_toNat_le.mpr (toNat_toUInt32_le hm.isNumber ?_)
    rw [hv, EReal.coe_lt_coe_iff]
    exact lt_add_one _

theorem toUInt32_mul_le (h : x ≤ 1) : (a.toFloat * x).toUInt32 ≤ a :=
  UInt32.le_trans (toUInt32_mul_le_mul h) toUInt32_mul_one_le

-- What is no number is not above one either.
theorem toUInt32_mul_le_of_not_lt (h : ¬1 < x) : (a.toFloat * x).toUInt32 ≤ a := by
  by_cases hx : x.toModel.unpack = .notANumber
  case pos =>
    rw [toUInt32_mul_notANumber hx]
    exact UInt32.zero_le
  case neg => exact toUInt32_mul_le <| le_of_not_lt hx (fun h => nomatch h) h

end Product

end PagePrep.Truncation
