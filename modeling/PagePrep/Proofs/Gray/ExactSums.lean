import Mathlib
import PagePrep.Proofs.Gray.Threshold

-- The weights and the sums of the samples may as well be added up as floating-point numbers. As
-- long as they are below `2 ^ 53`, nothing of them is rounded away.

namespace PagePrep.Otsu

open Layout Float.Model

section Numbers

variable {m n : Nat} {x y : Float} {r : EReal}

theorem eq_of_unpack_eq (h : x.toModel.unpack = y.toModel.unpack) : x = y := by
  obtain ⟨⟨a, ha⟩⟩ := x
  obtain ⟨⟨b, hb⟩⟩ := y
  have h : UnpackedFloat.unpack .binary64 a.toBitVec =
      UnpackedFloat.unpack .binary64 b.toBitVec := h
  have hab : a.toBitVec = b.toBitVec := by
    rw [← pack_unpack (by decide) ha, h, pack_unpack (by decide) hb]
  obtain rfl := UInt64.toBitVec_inj.mp hab
  rfl

-- A number without a minus.
def IsUnsigned (x : Float) : Prop :=
  ∃ bits ≤ double.infinity, x.toModel.unpack = double.ofParts false bits

theorem isUnsigned_of_pos (h : double.Rounds r x.toModel.unpack) (hr : 0 < r) : IsUnsigned x := by
  obtain ⟨negative, bits, s, hs, rfl, hx⟩ := h
  cases negative
  case false => exact ⟨bits, hs.le_infinity, hx⟩
  case true  => exact absurd hr (not_lt.mpr (EReal.neg_le_zero.mpr hs.nonneg))

theorem isUnsigned_toFloat : IsUnsigned (toFloat n) :=
  ⟨_, nearest_le_infinity, describes_double.reread_ofNat _⟩

theorem eq_of_value_eq (hx : IsUnsigned x) (hy : IsUnsigned y)
    (h : value x.toModel.unpack = value y.toModel.unpack) : x = y := by
  obtain ⟨a, ha, hx⟩ := hx
  obtain ⟨b, hb, hy⟩ := hy
  rw [hx, hy, value_ofParts ha, value_ofParts hb] at h
  have hab : a = b := by
    obtain hlt | heq | hlt := Nat.lt_trichotomy a b
    case inl     => exact absurd h (ne_of_lt (magnitude_lt_magnitude hlt hb))
    case inr.inl => exact heq
    case inr.inr => exact absurd h (ne_of_gt (magnitude_lt_magnitude hlt ha))
  exact eq_of_unpack_eq (by rw [hx, hy, hab])

theorem eq_toFloat (hn : n < 2 ^ 53) (hx : IsUnsigned x)
    (hr : double.Rounds ((n : ℝ) : EReal) x.toModel.unpack) : x = toFloat n := by
  refine eq_of_value_eq hx isUnsigned_toFloat ?_
  rw [describes_double.value_eq_of_holds hr (holds_of_lt hn), value_toFloat_nat hn]

theorem coe_pos_of_ne_zero (hn : n ≠ 0) : 0 < ((n : ℝ) : EReal) :=
  EReal.coe_pos.mpr (Nat.cast_pos.mpr (Nat.pos_of_ne_zero hn))

theorem exists_stored_toFloat (hn : n < 2 ^ 53) : ∃ bits < double.infinity,
    double.units bits = n * 2 ^ double.unit ∧
      (toFloat n).toModel.unpack = double.stored (signOf false) bits := by
  have hsize : (UInt64.ofNat n).toNat = n :=
    UInt64.toNat_ofNat_of_lt' (Nat.lt_trans hn (by decide))
  obtain ⟨bits, hlt, hu, hs⟩ := describes_double.exists_reread_ofNat hn
  have hread : (toFloat n).toModel.unpack =
      reread .binary64 (.ofNat .binary64 (UInt64.ofNat n).toNat) := rfl
  exact ⟨bits, hlt, hu, by rw [hread, hsize, hs]⟩

theorem toFloat_add (h : m + n < 2 ^ 53) : toFloat m + toFloat n = toFloat (m + n) := by
  have hlt : m < 2 ^ 53 := Nat.lt_of_le_of_lt (Nat.le_add_right m n) h
  have hlt' : n < 2 ^ 53 := Nat.lt_of_le_of_lt (Nat.le_add_left n m) h
  have hm := value_toFloat_nat hlt
  have hr : double.Rounds (value (toFloat m).toModel.unpack + value (toFloat n).toModel.unpack)
      (toFloat m + toFloat n).toModel.unpack :=
    describes_double.rounds_add (rounds_toFloat_nat hlt).isNumber (rounds_toFloat_nat hlt').isNumber
      (.inl (hm ▸ EReal.coe_ne_bot _)) (.inl (hm ▸ EReal.coe_ne_top _))
  rw [hm, value_toFloat_nat hlt', ← EReal.coe_add, ← Nat.cast_add] at hr
  by_cases hz : m + n = 0
  case pos =>
    obtain ⟨rfl, rfl⟩ := Nat.add_eq_zero_iff.mp hz
    decide +kernel
  case neg => exact eq_toFloat h (isUnsigned_of_pos hr (coe_pos_of_ne_zero hz)) hr

theorem toFloat_sub (hle : m ≤ n) (h : n < 2 ^ 53) : toFloat n - toFloat m = toFloat (n - m) := by
  have hlt : m < 2 ^ 53 := Nat.lt_of_le_of_lt hle h
  have hn := value_toFloat_nat h
  have hr : double.Rounds (value (toFloat n).toModel.unpack - value (toFloat m).toModel.unpack)
      (toFloat n - toFloat m).toModel.unpack :=
    describes_double.rounds_sub (rounds_toFloat_nat h).isNumber (rounds_toFloat_nat hlt).isNumber
      (.inl (hn ▸ EReal.coe_ne_bot _)) (.inl (hn ▸ EReal.coe_ne_top _))
  rw [hn, value_toFloat_nat hlt, ← EReal.coe_sub, ← Nat.cast_sub hle] at hr
  refine eq_toFloat (Nat.lt_of_le_of_lt (Nat.sub_le ..) h) ?_ hr
  by_cases hz : n - m = 0
  case neg => exact isUnsigned_of_pos hr (coe_pos_of_ne_zero hz)
  case pos =>
    -- What is left of a number without itself has no minus.
    obtain rfl : m = n := by omega
    obtain ⟨a, ha, hu, hs⟩ := exists_stored_toFloat h
    have hsub : (toFloat m - toFloat m).toModel.unpack = reread .binary64
        (.sub .binary64 (toFloat m).toModel.unpack (toFloat m).toModel.unpack) := rfl
    rw [IsUnsigned, hsub, hs, sub_eq_add, neg_stored]
    by_cases hzero : a = 0
    case pos =>
      rw [hzero, stored_zero, stored_zero, zero_add_zero, Bool.false_and,
        ← describes_double.ofParts_zero]
      exact ⟨0, Nat.zero_le _, describes_double.reread_ofParts (Nat.zero_le _)⟩
    case neg =>
      have hdifference : (signOf false).apply (double.units a) +
          (signOf (!false)).apply (double.units a) = 0 := Int.add_right_neg _
      rw [describes_double.reread_add hzero hzero, hdifference, decide_eq_false (Int.lt_irrefl 0)]
      exact ⟨_, nearest_le_infinity, rfl⟩

theorem toFloat_mul (h : m * n < 2 ^ 53) (hm : m < 2 ^ 53) (hn : n < 2 ^ 53) :
    toFloat m * toFloat n = toFloat (m * n) := by
  obtain ⟨a, ha, hau, hma⟩ := exists_stored_toFloat hm
  obtain ⟨b, hb, hbu, hnb⟩ := exists_stored_toFloat hn
  have hunsigned : IsUnsigned (toFloat m * toFloat n) := by
    have hmul : (toFloat m * toFloat n).toModel.unpack = reread .binary64
        (.mul .binary64 (toFloat m).toModel.unpack (toFloat n).toModel.unpack) := rfl
    rw [IsUnsigned, hmul, hma, hnb, describes_double.reread_mul]
    exact ⟨_, nearest_le_infinity, rfl⟩
  have hvm := value_toFloat_nat hm
  have hvn := value_toFloat_nat hn
  have hr : double.Rounds (value (toFloat m).toModel.unpack * value (toFloat n).toModel.unpack)
      (toFloat m * toFloat n).toModel.unpack :=
    describes_double.rounds_mul (rounds_toFloat_nat hm).isNumber (rounds_toFloat_nat hn).isNumber
      (fun _ => hvn ▸ ⟨EReal.coe_ne_top _, EReal.coe_ne_bot _⟩)
      (fun _ => hvm ▸ ⟨EReal.coe_ne_top _, EReal.coe_ne_bot _⟩)
  rw [hvm, hvn, ← EReal.coe_mul, ← Nat.cast_mul] at hr
  exact eq_toFloat h hunsigned hr

end Numbers

section Sums

variable {below belowSum above aboveSum total totalSum level : Nat} {counts : List Nat}

-- The variance, with weights and sums as floating-point numbers.
def floatingVariance (below belowSum above aboveSum : Float) : Float :=
  if below == 0 || above == 0 then
    0
  else
    let distance := belowSum / below - aboveSum / above
    below * above * (distance * distance)

def floatingScoresFrom (total totalSum : Float) (level : Nat) (below belowSum : Float) :
    List Nat → List Float
  | []            => []
  | count :: rest =>
    let below := below + toFloat count
    let belowSum := belowSum + toFloat level * toFloat count
    floatingVariance below belowSum (total - below) (totalSum - belowSum) ::
      floatingScoresFrom total totalSum (level + 1) below belowSum rest

-- The counts added up, and each times its level.
def floatingWeight (weight : Float) : List Nat → Float
  | []            => weight
  | count :: rest => floatingWeight (weight + toFloat count) rest

def floatingSum (level : Nat) (sum : Float) : List Nat → Float
  | []            => sum
  | count :: rest => floatingSum (level + 1) (sum + toFloat level * toFloat count) rest

def floatingScores (counts : List Nat) : List Float :=
  floatingScoresFrom (floatingWeight 0 counts) (floatingSum 0 0 counts) 0 0 0 counts

theorem zero_eq_toFloat : 0 = toFloat 0 := by
  decide +kernel

theorem beq_zero_eq {n : Nat} (hn : n < 2 ^ 53) : (toFloat n == 0) = decide (n = 0) := by
  have hbeq := beq_iff_value_eq (rounds_toFloat_nat hn).isNumber isNumber_zero
  have hvalue : value (toFloat n).toModel.unpack = value (0 : Float).toModel.unpack ↔ n = 0 := by
    rw [value_toFloat_nat hn]
    exact EReal.coe_eq_zero.trans Nat.cast_eq_zero
  rw [Bool.eq_iff_iff, decide_eq_true_eq]
  exact hbeq.trans hvalue

theorem floatingVariance_eq (hbelow : below < 2 ^ 53) (habove : above < 2 ^ 53) :
    floatingVariance (toFloat below) (toFloat belowSum) (toFloat above) (toFloat aboveSum) =
      variance below belowSum above aboveSum := by
  rw [floatingVariance, beq_zero_eq hbelow, beq_zero_eq habove, variance]
  simp only [Bool.or_eq_true, decide_eq_true_eq]

theorem floatingScoresFrom_eq (hlevel : level + counts.length ≤ 2 ^ 53)
    (hweight : below + counts.foldr (· + ·) 0 = total)
    (hsum : belowSum + weighted level counts = totalSum)
    (htotal : total < 2 ^ 53) (htotalSum : totalSum < 2 ^ 53) :
    floatingScoresFrom (toFloat total) (toFloat totalSum) level (toFloat below) (toFloat belowSum)
        counts =
      scoresFrom total totalSum level below belowSum counts := by
  induction counts generalizing level below belowSum
  case nil => rfl
  case cons count rest ih =>
    rw [List.foldr_cons, ← Nat.add_assoc] at hweight
    rw [weighted, ← Nat.add_assoc] at hsum
    rw [List.length_cons] at hlevel
    have hproduct : toFloat level * toFloat count = toFloat (level * count) :=
      toFloat_mul (by omega) (by omega) (by omega)
    have hbelow : toFloat below + toFloat count = toFloat (below + count) := toFloat_add (by omega)
    have hbelowSum : toFloat belowSum + toFloat (level * count) =
        toFloat (belowSum + level * count) := toFloat_add (by omega)
    have habove : toFloat total - toFloat (below + count) = toFloat (total - (below + count)) :=
      toFloat_sub (by omega) htotal
    have haboveSum : toFloat totalSum - toFloat (belowSum + level * count) =
        toFloat (totalSum - (belowSum + level * count)) := toFloat_sub (by omega) htotalSum
    rw [floatingScoresFrom, scoresFrom, hproduct, hbelow, hbelowSum, habove, haboveSum,
      floatingVariance_eq (by omega) (by omega), ih (by omega) hweight hsum]

theorem floatingWeight_eq {weight : Nat} (h : weight + counts.foldr (· + ·) 0 < 2 ^ 53) :
    floatingWeight (toFloat weight) counts = toFloat (weight + counts.foldr (· + ·) 0) := by
  induction counts generalizing weight
  case nil => rfl
  case cons count rest ih =>
    rw [List.foldr_cons, ← Nat.add_assoc] at h ⊢
    rw [floatingWeight, toFloat_add (by omega), ih h]

theorem floatingSum_eq {sum : Nat} (hlevel : level + counts.length ≤ 2 ^ 53)
    (hcounts : counts.foldr (· + ·) 0 < 2 ^ 53) (h : sum + weighted level counts < 2 ^ 53) :
    floatingSum level (toFloat sum) counts = toFloat (sum + weighted level counts) := by
  induction counts generalizing level sum
  case nil => rfl
  case cons count rest ih =>
    rw [weighted, ← Nat.add_assoc] at h ⊢
    rw [List.foldr_cons] at hcounts
    rw [List.length_cons] at hlevel
    rw [floatingSum, toFloat_mul (by omega) (by omega) (by omega), toFloat_add (by omega),
      ih (by omega) (by omega) h]

-- The scores of the samples are the same, whichever way their weights and sums are added up.
theorem floatingScores_histogram {samples : Array UInt8} (h : HasExactSums samples.toList) :
    floatingScores (histogram samples).toList = scores (histogram samples).toList := by
  have hcounts : (histogram samples).toList = (List.range 256).map (countOf samples.toList) :=
    toList_histogram
  have hlength : ((List.range 256).map (countOf samples.toList)).length = 256 := by
    rw [List.length_map, List.length_range]
  have hweight := @foldr_countOf samples.toList
  have hsum := @weighted_countOf samples.toList
  have htotal := h.length
  have htotalSum := h.sum
  rw [hcounts, floatingScores, scores, zero_eq_toFloat, floatingWeight_eq (by omega),
    floatingSum_eq (by omega) (by omega) (by omega), Nat.zero_add, Nat.zero_add]
  exact floatingScoresFrom_eq (by omega) (Nat.zero_add _) (Nat.zero_add _) (by omega) (by omega)

end Sums

end PagePrep.Otsu
