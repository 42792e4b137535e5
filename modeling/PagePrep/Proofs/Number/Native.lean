import Mathlib
import PagePrep.Proofs.Number.Arithmetic
import PagePrep.Proofs.Number.Widen

-- The numbers that are calculated with are ordered as their values are.

namespace PagePrep

open Layout Float.Model FloatOrder

section Double

variable {x y z : Float}

theorem lt_iff_value_lt (hx : double.IsNumber x.toModel.unpack)
    (hy : double.IsNumber y.toModel.unpack) :
    x < y ↔ value x.toModel.unpack < value y.toModel.unpack :=
  lt_iff.trans (compare_eq_lt_iff hx hy)

theorem le_iff_value_le (hx : double.IsNumber x.toModel.unpack)
    (hy : double.IsNumber y.toModel.unpack) :
    x ≤ y ↔ value x.toModel.unpack ≤ value y.toModel.unpack :=
  le_iff.trans (any_isLE_compare_iff hx hy)

theorem beq_iff_value_eq (hx : double.IsNumber x.toModel.unpack)
    (hy : double.IsNumber y.toModel.unpack) :
    x == y ↔ value x.toModel.unpack = value y.toModel.unpack := by
  have hbeq : (x == y) = (x.toModel.unpack.compare y.toModel.unpack == some .eq) := rfl
  rw [hbeq, beq_iff_eq]
  exact compare_eq_eq_iff hx hy

theorem isNumber_of_le (h : x ≤ y) :
    double.IsNumber x.toModel.unpack ∧ double.IsNumber y.toModel.unpack := by
  obtain ⟨hx, hy⟩ := ne_notANumber_of_isLE (le_iff.mp h)
  exact ⟨describes_double.isNumber_unpack hx, describes_double.isNumber_unpack hy⟩

theorem value_le_of_le (h : x ≤ y) : value x.toModel.unpack ≤ value y.toModel.unpack := by
  obtain ⟨hx, hy⟩ := isNumber_of_le h
  exact (le_iff_value_le hx hy).mp h

theorem isNumber_of_lt (h : x < y) :
    double.IsNumber x.toModel.unpack ∧ double.IsNumber y.toModel.unpack := by
  refine isNumber_of_le (le_iff.mpr ?_)
  rw [lt_iff.mp h]
  rfl

theorem value_lt_of_lt (h : x < y) : value x.toModel.unpack < value y.toModel.unpack := by
  obtain ⟨hx, hy⟩ := isNumber_of_lt h
  exact (lt_iff_value_lt hx hy).mp h

namespace FloatOrder

theorem not_lt_self (x : Float) : ¬x < x :=
  fun h => lt_irrefl _ (value_lt_of_lt h)

theorem not_lt_of_lt (h : x < y) : ¬y < x :=
  fun h' => lt_asymm (value_lt_of_lt h) (value_lt_of_lt h')

theorem lt_of_le (h : x ≤ y) (h' : y < z) : x < z :=
  (lt_iff_value_lt (isNumber_of_le h).left (isNumber_of_lt h').right).mpr
    (lt_of_le_of_lt (value_le_of_le h) (value_lt_of_lt h'))

theorem le_of_lt (h : x < y) : x ≤ y := by
  obtain ⟨hx, hy⟩ := isNumber_of_lt h
  exact (le_iff_value_le hx hy).mpr (value_lt_of_lt h).le

theorem le_of_not_lt (hx : x.toModel.unpack ≠ .notANumber) (hy : y.toModel.unpack ≠ .notANumber)
    (h : ¬y < x) : x ≤ y := by
  have hx := describes_double.isNumber_unpack hx
  have hy := describes_double.isNumber_unpack hy
  exact (le_iff_value_le hx hy).mpr (not_lt.mp (mt (lt_iff_value_lt hy hx).mpr h))

end FloatOrder

theorem isNumber_zero : double.IsNumber (0 : Float).toModel.unpack :=
  describes_double.isNumber_zero false

theorem isNumber_one : double.IsNumber (1 : Float).toModel.unpack :=
  describes_double.isNumber_unpack fun h => nomatch h

theorem value_one : value (1 : Float).toModel.unpack = 1 := by
  have hone : (1 : Float).toModel.unpack = .finite .positive (2 ^ 52) (-52) (by decide) := rfl
  rw [hone, value, UnpackedFloat.Sign.apply]
  norm_num

end Double

section Single

variable {x y : Float32}

theorem single_le_iff_value_le (hx : single.IsNumber x.toModel.unpack)
    (hy : single.IsNumber y.toModel.unpack) :
    x ≤ y ↔ value x.toModel.unpack ≤ value y.toModel.unpack :=
  single_le_iff.trans (any_isLE_compare_iff hx hy)

theorem isNumber_of_single_le (h : x ≤ y) :
    single.IsNumber x.toModel.unpack ∧ single.IsNumber y.toModel.unpack := by
  obtain ⟨hx, hy⟩ := ne_notANumber_of_isLE (single_le_iff.mp h)
  exact ⟨describes_single.isNumber_unpack hx, describes_single.isNumber_unpack hy⟩

theorem value_le_of_single_le (h : x ≤ y) : value x.toModel.unpack ≤ value y.toModel.unpack := by
  obtain ⟨hx, hy⟩ := isNumber_of_single_le h
  exact (single_le_iff_value_le hx hy).mp h

theorem isNumber_of_single_lt (h : x < y) :
    single.IsNumber x.toModel.unpack ∧ single.IsNumber y.toModel.unpack := by
  refine isNumber_of_single_le (single_le_iff.mpr ?_)
  rw [single_lt_iff.mp h]
  rfl

theorem value_lt_of_single_lt (h : x < y) : value x.toModel.unpack < value y.toModel.unpack := by
  obtain ⟨hx, hy⟩ := isNumber_of_single_lt h
  exact (compare_eq_lt_iff hx hy).mp (single_lt_iff.mp h)

-- What is finite is a number, and its value is a real one.
theorem isNumber_of_isFinite (h : x.isFinite) : single.IsNumber x.toModel.unpack := by
  refine describes_single.isNumber_unpack fun hx => ?_
  have hf : x.isFinite = x.toModel.unpack.isFinite := rfl
  rw [hf, show x.toModel.unpack = .notANumber from hx] at h
  exact absurd h Bool.false_ne_true

theorem exists_value_eq_of_isFinite (h : x.isFinite) :
    ∃ r : ℝ, value x.toModel.unpack = (r : EReal) := by
  have h : x.toModel.unpack.isFinite := h
  cases hx : x.toModel.unpack
  case zero   => exact ⟨0, rfl⟩
  case finite => exact ⟨_, rfl⟩
  all_goals simp [hx, UnpackedFloat.isFinite] at h

theorem single_isNumber_zero : single.IsNumber (0 : Float32).toModel.unpack :=
  describes_single.isNumber_zero false

theorem single_isNumber_one : single.IsNumber (1 : Float32).toModel.unpack :=
  describes_single.isNumber_unpack fun h => nomatch h

theorem single_value_one : value (1 : Float32).toModel.unpack = 1 := by
  have hone : (1 : Float32).toModel.unpack = .finite .positive (2 ^ 23) (-23) (by decide) := rfl
  rw [hone, value, UnpackedFloat.Sign.apply]
  norm_num

end Single

section Parts

variable {x y : Float32} {m n : Nat}

theorem single_holds_zero : single.Holds 0 :=
  ⟨_, single_isNumber_zero, rfl⟩

theorem single_holds_one : single.Holds 1 := by
  exact_mod_cast describes_single.holds_natCast (m := 1) (by decide)

theorem rounds_toFloat32_ofNat (h : n < 2 ^ 64) :
    single.Rounds ((n : ℝ) : EReal) (UInt64.ofNat n).toFloat32.toModel.unpack := by
  have hr : single.Rounds (((UInt64.ofNat n).toNat : ℝ) : EReal)
      (UInt64.ofNat n).toFloat32.toModel.unpack :=
    describes_single.rounds_ofNat _
  rwa [UInt64.toNat_ofNat_of_lt' h] at hr

theorem value_toFloat32_lt_top (h : n < 2 ^ 64) :
    value (UInt64.ofNat n).toFloat32.toModel.unpack < ⊤ := by
  have hmax := @Describes.holds_mul_two_pow _ _ describes_single 1 64 (by decide) (by decide)
  refine lt_of_le_of_lt
    (describes_single.value_le_of_holds (rounds_toFloat32_ofNat h) hmax ?_) (EReal.coe_lt_top _)
  rw [EReal.coe_le_coe_iff]
  exact_mod_cast (Nat.one_mul (2 ^ 64) ▸ h.le : n ≤ 1 * 2 ^ 64)

theorem div_between (hx : single.IsNumber x.toModel.unpack) (hy : single.IsNumber y.toModel.unpack)
    (hzero : 0 ≤ value x.toModel.unpack) (hle : value x.toModel.unpack ≤ value y.toModel.unpack)
    (hpos : 0 < value y.toModel.unpack) (hfinite : value y.toModel.unpack < ⊤) :
    0 ≤ x / y ∧ x / y ≤ 1 := by
  have hd : single.Rounds (value x.toModel.unpack / value y.toModel.unpack)
      (x / y).toModel.unpack :=
    describes_single.rounds_div hx hy (ne_of_lt (lt_of_le_of_lt hle hfinite))
      (ne_of_gt (lt_of_lt_of_le EReal.bot_lt_zero hzero)) (ne_of_lt hfinite)
      (ne_of_gt (lt_trans EReal.bot_lt_zero hpos)) (ne_of_gt hpos)
  rw [single_le_iff_value_le single_isNumber_zero hd.isNumber,
    single_le_iff_value_le hd.isNumber single_isNumber_one, single_value_one]
  constructor
  case left  =>
    exact describes_single.le_value_of_holds hd single_holds_zero (EReal.div_nonneg hzero hpos.le)
  case right =>
    refine describes_single.value_le_of_holds hd single_holds_one ?_
    rw [EReal.div_le_iff_le_mul hpos (ne_of_lt hfinite), mul_one]
    exact hle

-- A part is between nothing and the whole, however the two numbers are rounded.
theorem quotient_between (hle : m ≤ n) (hpos : 0 < n) (hlt : n < 2 ^ 64) :
    0 ≤ (UInt64.ofNat m).toFloat32 / (UInt64.ofNat n).toFloat32 ∧
      (UInt64.ofNat m).toFloat32 / (UInt64.ofNat n).toFloat32 ≤ 1 := by
  have hm := rounds_toFloat32_ofNat (Nat.lt_of_le_of_lt hle hlt)
  have hn := rounds_toFloat32_ofNat hlt
  have hone : 1 ≤ value (UInt64.ofNat n).toFloat32.toModel.unpack :=
    describes_single.le_value_of_holds hn single_holds_one
      (EReal.coe_le_coe (Nat.one_le_cast.mpr hpos))
  exact div_between hm.isNumber hn.isNumber
    (describes_single.le_value_of_holds hm single_holds_zero
      (EReal.coe_nonneg.mpr (Nat.cast_nonneg m)))
    (describes_single.value_le_value hm hn (EReal.coe_le_coe (Nat.cast_le.mpr hle)))
    (lt_of_lt_of_le zero_lt_one hone) (value_toFloat32_lt_top hlt)

theorem add_between (hx : single.IsNumber x.toModel.unpack) (hy : single.IsNumber y.toModel.unpack)
    (hxm : 0 ≤ value x.toModel.unpack ∧ value x.toModel.unpack ≤ ((m : ℝ) : EReal))
    (hyn : 0 ≤ value y.toModel.unpack ∧ value y.toModel.unpack ≤ ((n : ℝ) : EReal))
    (hmn : m + n < 2 ^ 24) :
    single.IsNumber (x + y).toModel.unpack ∧ 0 ≤ value (x + y).toModel.unpack ∧
      value (x + y).toModel.unpack ≤ (((m + n : Nat) : ℝ) : EReal) := by
  have ha : single.Rounds (value x.toModel.unpack + value y.toModel.unpack)
      (x + y).toModel.unpack :=
    describes_single.rounds_add hx hy
      (.inl (ne_of_gt (lt_of_lt_of_le EReal.bot_lt_zero hxm.left)))
      (.inl (ne_of_lt (lt_of_le_of_lt hxm.right (EReal.coe_lt_top _))))
  have hle := add_le_add hxm.right hyn.right
  rw [← EReal.coe_add, ← Nat.cast_add] at hle
  exact ⟨ha.isNumber,
    describes_single.le_value_of_holds ha single_holds_zero (add_nonneg hxm.left hyn.left),
    describes_single.value_le_of_holds ha (describes_single.holds_natCast hmn) hle⟩

theorem value_between_of_between (h : 0 ≤ x ∧ x ≤ 1) : single.IsNumber x.toModel.unpack ∧
    0 ≤ value x.toModel.unpack ∧ value x.toModel.unpack ≤ (((1 : Nat) : ℝ) : EReal) := by
  have hone := value_le_of_single_le h.right
  rw [single_value_one] at hone
  refine ⟨(isNumber_of_single_le h.left).right, value_le_of_single_le h.left, ?_⟩
  exact_mod_cast hone

theorem value_four : value (4 : Float32).toModel.unpack = (((4 : Nat) : ℝ) : EReal) := by
  have hfour : (4 : Float32).toModel.unpack = .finite .positive (2 ^ 23) (-21) (by decide) := rfl
  rw [hfour, value, UnpackedFloat.Sign.apply]
  norm_num

theorem isNumber_four : single.IsNumber (4 : Float32).toModel.unpack :=
  describes_single.isNumber_unpack fun h => nomatch h

theorem meanOfFour_between {a b c d : Float32} (ha : 0 ≤ a ∧ a ≤ 1) (hb : 0 ≤ b ∧ b ≤ 1)
    (hc : 0 ≤ c ∧ c ≤ 1) (hd : 0 ≤ d ∧ d ≤ 1) :
    0 ≤ (a + b + c + d) / 4 ∧ (a + b + c + d) / 4 ≤ 1 := by
  have ha := value_between_of_between ha
  have hb := value_between_of_between hb
  have hc := value_between_of_between hc
  have hd := value_between_of_between hd
  have hab := add_between ha.left hb.left ha.right hb.right (by decide)
  have habc := add_between hab.left hc.left hab.right hc.right (by decide)
  have habcd := add_between habc.left hd.left habc.right hd.right (by decide)
  refine div_between habcd.left isNumber_four habcd.right.left ?_ ?_ ?_
  case refine_1 => exact value_four ▸ habcd.right.right
  case refine_2 => exact value_four ▸ EReal.coe_pos.mpr (by norm_num)
  case refine_3 => exact value_four ▸ EReal.coe_lt_top _

end Parts

section Widening

variable {x : Float32} {f : UnpackedFloat}

-- The wider format has every number of the shorter one.
theorem Layout.IsNumber.holds_double (hf : single.IsNumber f) : double.Holds (value f) := by
  obtain ⟨negative, bits, hb, rfl⟩ := hf
  obtain hi | rfl := Nat.lt_or_eq_of_le hb
  case inl =>
    obtain ⟨bits', hi', hu⟩ := exists_units_double hi
    refine ⟨_, ⟨negative, bits', Nat.le_of_lt hi', rfl⟩, ?_⟩
    have hpow : (2 : ℝ) ^ double.unit = 2 ^ (double.unit - single.unit) * 2 ^ single.unit := by
      rw [← pow_add, Nat.sub_add_cancel (by decide)]
    have hne : (2 : ℝ) ^ (double.unit - single.unit) ≠ 0 := by positivity
    rw [value_ofParts hb, value_ofParts (Nat.le_of_lt hi'), magnitude_of_lt hi, magnitude_of_lt hi',
      hu, hpow, Nat.cast_mul, Nat.cast_pow, Nat.cast_ofNat, mul_comm (single.units bits : ℝ),
      mul_div_mul_left _ _ hne]
  case inr =>
    refine ⟨_, ⟨negative, double.infinity, Nat.le_refl _, rfl⟩, ?_⟩
    rw [value_ofParts hb, value_ofParts (Nat.le_refl _), magnitude_infinity, magnitude_infinity]

theorem not_isNaN_of_isNumber (hx : single.IsNumber x.toModel.unpack) : ¬x.isNaN := by
  intro h
  have h : x.toModel.unpack.isNaN := h
  have hne := hx.ne_notANumber
  cases hu : x.toModel.unpack
  case notANumber => exact hne hu
  all_goals simp [hu, UnpackedFloat.isNaN] at h

theorem unpack_single_eq : x.toModel.unpack = single.ofParts (singleParts x).1 (singleParts x).2 :=
  describes_single.unpack_eq _

theorem rounds_widen (hx : single.IsNumber x.toModel.unpack) :
    double.Rounds (value x.toModel.unpack) (widen x).toModel.unpack := by
  have h := not_isNaN_of_isNumber hx
  have hle := Nat.not_lt.mp (mt single_isNaN_iff.mpr h)
  have hd : (widen x).toModel.unpack =
      double.ofParts (doubleParts (widen x)).1 (doubleParts (widen x)).2 :=
    describes_double.unpack_eq _
  rw [hd, widen_eq h, unpack_single_eq, value_ofParts hle]
  by_cases hi : (singleParts x).2 = single.infinity
  case pos =>
    rw [if_pos hi, doubleParts_ofBits (Nat.le_refl _), hi, magnitude_infinity]
    exact ⟨_, _, _, .infinity, rfl, rfl⟩
  case neg =>
    have hlt := Nat.lt_of_le_of_ne hle hi
    have hn := @RoundsTo.nearest double (single.units (singleParts x).2) _
      (Nat.two_pow_pos single.unit)
    rw [Nat.cast_pow, Nat.cast_ofNat] at hn
    rw [if_neg hi, doubleParts_ofBits nearest_le_infinity, fraction_eq, magnitude_of_lt hlt]
    exact ⟨_, _, _, hn, rfl, rfl⟩

-- So nothing is lost on the way to the wider format.
theorem value_widen (hx : single.IsNumber x.toModel.unpack) :
    value (widen x).toModel.unpack = value x.toModel.unpack :=
  describes_double.value_eq_of_holds (rounds_widen hx) hx.holds_double

end Widening

end PagePrep
