import Mathlib
import PagePrep.Proofs.Gray.Otsu
import PagePrep.Proofs.Number.Native

-- The threshold of a tile that has two different samples splits them. Only a level with samples on
-- both sides has a score, which is at least one, and less than the whole of the best score is
-- given away.

namespace PagePrep

open Layout Float.Model

namespace Otsu

section Scores

variable {samples : List UInt8} {level n : Nat}

-- The samples up to a level, and those above it.
def dark (samples : List UInt8) (level : Nat) : List UInt8 :=
  samples.filter (·.toNat ≤ level)

def light (samples : List UInt8) (level : Nat) : List UInt8 :=
  samples.filter (level < ·.toNat)

def sampleSum (samples : List UInt8) : Nat :=
  (samples.map UInt8.toNat).sum

-- The variance between the two classes that a level makes of the samples.
def score (samples : List UInt8) (level : Nat) : Float :=
  variance (dark samples level).length (sampleSum (dark samples level))
    (light samples level).length (sampleSum (light samples level))

-- The samples below a level, and those of the level itself.
def darker (samples : List UInt8) (level : Nat) : List UInt8 :=
  samples.filter (·.toNat < level)

def ofLevel (samples : List UInt8) (level : Nat) : List UInt8 :=
  samples.filter (·.toNat = level)

def countOf (samples : List UInt8) (level : Nat) : Nat :=
  samples.countP (·.toNat = level)

theorem sampleSum_append {other : List UInt8} :
    sampleSum (samples ++ other) = sampleSum samples + sampleSum other := by
  rw [sampleSum, List.map_append, List.sum_append, sampleSum, sampleSum]

theorem sampleSum_perm {other : List UInt8} (h : samples.Perm other) :
    sampleSum samples = sampleSum other :=
  (h.map _).sum_nat

theorem length_ofLevel : (ofLevel samples level).length = countOf samples level :=
  List.countP_eq_length_filter.symm

theorem sampleSum_ofLevel : sampleSum (ofLevel samples level) = level * countOf samples level := by
  have hlevel : (ofLevel samples level).map UInt8.toNat =
      List.replicate (countOf samples level) level := by
    rw [List.eq_replicate_iff, List.length_map, length_ofLevel]
    refine ⟨rfl, fun n hn => ?_⟩
    obtain ⟨v, hv, rfl⟩ := List.mem_map.mp hn
    exact of_decide_eq_true (List.mem_filter.mp hv).right
  rw [sampleSum, hlevel, List.sum_replicate_nat, Nat.mul_comm]

theorem dark_eq_darker : dark samples level = darker samples (level + 1) := by
  simp only [dark, darker, Nat.lt_succ_iff]

theorem darker_zero : darker samples 0 = [] := by
  simp [darker]

theorem darker_size : darker samples UInt8.size = samples :=
  List.filter_eq_self.mpr fun v _ => decide_eq_true v.toNat_lt

theorem dark_append_light_perm : (dark samples level ++ light samples level).Perm samples := by
  have hlight : light samples level = samples.filter fun v => !decide (v.toNat ≤ level) := by
    simp only [light, ← decide_not, Nat.not_le]
  rw [hlight]
  exact List.filter_append_perm ..

theorem darker_append_ofLevel_perm :
    (darker samples level ++ ofLevel samples level).Perm (darker samples (level + 1)) := by
  have hp := List.filter_append_perm (·.toNat < level) (darker samples (level + 1))
  have hdarker (v : UInt8) :
      (decide (v.toNat < level) && decide (v.toNat < level + 1)) = decide (v.toNat < level) := by
    rw [Bool.eq_iff_iff]
    simp only [Bool.and_eq_true, decide_eq_true_eq]
    omega
  have hlevel (v : UInt8) :
      (!decide (v.toNat < level) && decide (v.toNat < level + 1)) = decide (v.toNat = level) := by
    rw [Bool.eq_iff_iff]
    simp only [Bool.and_eq_true, Bool.not_eq_true', decide_eq_false_iff_not, decide_eq_true_eq]
    omega
  rw [darker, List.filter_filter, List.filter_filter] at hp
  simp only [hdarker, hlevel] at hp
  exact hp

theorem length_darker_succ :
    (darker samples (level + 1)).length =
      (darker samples level).length + countOf samples level := by
  rw [← darker_append_ofLevel_perm.length_eq, List.length_append, length_ofLevel]

theorem sampleSum_darker_succ :
    sampleSum (darker samples (level + 1)) =
      sampleSum (darker samples level) + level * countOf samples level := by
  rw [← sampleSum_perm darker_append_ofLevel_perm, sampleSum_append, sampleSum_ofLevel]

theorem length_darker_add_foldr :
    (darker samples level).length +
        ((List.range' level n).map (countOf samples)).foldr (· + ·) 0 =
      (darker samples (level + n)).length := by
  induction n generalizing level
  case zero => rfl
  case succ n ih =>
    rw [List.range'_succ, List.map_cons, List.foldr_cons, ← Nat.add_assoc, ← length_darker_succ, ih,
      Nat.add_assoc, Nat.add_comm 1]

theorem sampleSum_darker_add_weighted :
    sampleSum (darker samples level) +
        weighted level ((List.range' level n).map (countOf samples)) =
      sampleSum (darker samples (level + n)) := by
  induction n generalizing level
  case zero => rfl
  case succ n ih =>
    rw [List.range'_succ, List.map_cons, weighted, ← Nat.add_assoc, ← sampleSum_darker_succ, ih,
      Nat.add_assoc, Nat.add_comm 1]

-- The running sums are those of the samples below the level.
theorem scoresFrom_eq :
    scoresFrom samples.length (sampleSum samples) level (darker samples level).length
        (sampleSum (darker samples level)) ((List.range' level n).map (countOf samples)) =
      (List.range' level n).map (score samples) := by
  induction n generalizing level
  case zero => rfl
  case succ n ih =>
    have hlength : (dark samples level).length + (light samples level).length = samples.length := by
      rw [← List.length_append, dark_append_light_perm.length_eq]
    have hsum : sampleSum (dark samples level) + sampleSum (light samples level) =
        sampleSum samples := by
      rw [← sampleSum_append, sampleSum_perm dark_append_light_perm]
    have hscore : variance (dark samples level).length (sampleSum (dark samples level))
        (samples.length - (dark samples level).length)
        (sampleSum samples - sampleSum (dark samples level)) = score samples level := by
      rw [score, ← hlength, ← hsum, Nat.add_sub_cancel_left, Nat.add_sub_cancel_left]
    rw [List.range'_succ, List.map_cons, List.map_cons, scoresFrom, ← length_darker_succ,
      ← sampleSum_darker_succ, ih, ← dark_eq_darker, hscore]

theorem foldr_countOf :
    ((List.range 256).map (countOf samples)).foldr (· + ·) 0 = samples.length := by
  have h := @length_darker_add_foldr samples 0 256
  rwa [darker_zero, List.length_nil, Nat.zero_add, Nat.zero_add, ← List.range_eq_range',
    show darker samples 256 = samples from darker_size] at h

theorem weighted_countOf :
    weighted 0 ((List.range 256).map (countOf samples)) = sampleSum samples := by
  have h := @sampleSum_darker_add_weighted samples 0 256
  rwa [darker_zero, sampleSum, List.map_nil, List.sum_nil, Nat.zero_add, Nat.zero_add,
    ← List.range_eq_range', show darker samples 256 = samples from darker_size] at h

theorem scores_eq :
    scores ((List.range 256).map (countOf samples)) = (List.range 256).map (score samples) := by
  have h := @scoresFrom_eq samples 0 256
  rw [darker_zero] at h
  rw [scores, foldr_countOf, weighted_countOf, List.range_eq_range']
  exact h

end Scores

section Variance

variable {below belowSum above aboveSum level n : Nat}

-- Whole numbers below `2 ^ 53` are calculated with as they are.
theorem rounds_toFloat_nat (hn : n < 2 ^ 53) :
    double.Rounds ((n : ℝ) : EReal) (toFloat n).toModel.unpack := by
  have hr : double.Rounds (((UInt64.ofNat n).toNat : ℝ) : EReal) (toFloat n).toModel.unpack :=
    describes_double.rounds_ofNat _
  rwa [UInt64.toNat_ofNat_of_lt' (Nat.lt_trans hn (by decide))] at hr

theorem holds_of_lt (hn : n < 2 ^ 53) : double.Holds ((n : ℝ) : EReal) :=
  describes_double.holds_natCast hn

theorem value_toFloat_nat (hn : n < 2 ^ 53) :
    value (toFloat n).toModel.unpack = ((n : ℝ) : EReal) :=
  describes_double.value_eq_of_holds (rounds_toFloat_nat hn) (holds_of_lt hn)

theorem rounds_mean (hsum : belowSum < 2 ^ 53) (hbelow : below < 2 ^ 53) (hpos : 0 < below) :
    double.Rounds ((belowSum / below : ℝ) : EReal)
      (toFloat belowSum / toFloat below).toModel.unpack := by
  have hs := value_toFloat_nat hsum
  have hb := value_toFloat_nat hbelow
  have hd := describes_double.rounds_div (rounds_toFloat_nat hsum).isNumber
    (rounds_toFloat_nat hbelow).isNumber (hs ▸ EReal.coe_ne_top _) (hs ▸ EReal.coe_ne_bot _)
    (hb ▸ EReal.coe_ne_top _) (hb ▸ EReal.coe_ne_bot _)
    (hb ▸ EReal.coe_ne_zero.mpr (Nat.cast_ne_zero.mpr (Nat.ne_of_gt hpos)))
  rw [hs, hb, ← EReal.coe_div] at hd
  exact hd

theorem one_le_value_of_rounds {f : UnpackedFloat} {r : EReal} (hf : double.Rounds r f)
    (hr : 1 ≤ r) : 1 ≤ value f := by
  have hone : double.Holds (((1 : Nat) : ℝ) : EReal) := holds_of_lt (by decide)
  rw [Nat.cast_one, EReal.coe_one] at hone
  exact describes_double.le_value_of_holds hf hone hr

theorem rounds_mul_of_ne_zero {x y : Float} (hx : double.IsNumber x.toModel.unpack)
    (hy : double.IsNumber y.toModel.unpack) (hxz : value x.toModel.unpack ≠ 0)
    (hyz : value y.toModel.unpack ≠ 0) :
    double.Rounds (value x.toModel.unpack * value y.toModel.unpack) (x * y).toModel.unpack :=
  describes_double.rounds_mul hx hy (fun h => absurd h hxz) (fun h => absurd h hyz)

theorem ne_zero_of_one_le {r : EReal} (h : 1 ≤ r) : r ≠ 0 :=
  ne_of_gt (lt_of_lt_of_le zero_lt_one h)

theorem one_le_value_mul {x y : Float} (hx : double.IsNumber x.toModel.unpack)
    (hy : double.IsNumber y.toModel.unpack) (hx1 : 1 ≤ value x.toModel.unpack)
    (hy1 : 1 ≤ value y.toModel.unpack) :
    double.IsNumber (x * y).toModel.unpack ∧ 1 ≤ value (x * y).toModel.unpack := by
  have hm := rounds_mul_of_ne_zero hx hy (ne_zero_of_one_le hx1) (ne_zero_of_one_le hy1)
  exact ⟨hm.isNumber, one_le_value_of_rounds hm (one_le_mul_of_one_le_of_one_le hx1 hy1)⟩

theorem one_le_value_square {x : Float} (hx : double.IsNumber x.toModel.unpack)
    (hx1 : value x.toModel.unpack ≤ -1) :
    double.IsNumber (x * x).toModel.unpack ∧ 1 ≤ value (x * x).toModel.unpack := by
  have hneg : 1 ≤ -value x.toModel.unpack := EReal.le_neg.mp hx1
  have hz : value x.toModel.unpack ≠ 0 := fun h => ne_zero_of_one_le hneg (by rw [h, neg_zero])
  have hm := rounds_mul_of_ne_zero hx hx hz hz
  rw [← neg_mul_neg] at hm
  exact ⟨hm.isNumber, one_le_value_of_rounds hm (one_le_mul_of_one_le_of_one_le hneg hneg)⟩

theorem value_mean_le (hsum : belowSum < 2 ^ 53) (hbelow : below < 2 ^ 53) (hpos : 0 < below)
    (hlevel : level < 2 ^ 53) (h : belowSum ≤ level * below) :
    value (toFloat belowSum / toFloat below).toModel.unpack ≤ ((level : ℝ) : EReal) := by
  refine describes_double.value_le_of_holds (rounds_mean hsum hbelow hpos) (holds_of_lt hlevel) ?_
  rw [EReal.coe_le_coe_iff, div_le_iff₀ (Nat.cast_pos.mpr hpos)]
  exact_mod_cast h

theorem le_value_mean (hsum : belowSum < 2 ^ 53) (hbelow : below < 2 ^ 53) (hpos : 0 < below)
    (hlevel : level < 2 ^ 53) (h : level * below ≤ belowSum) :
    ((level : ℝ) : EReal) ≤ value (toFloat belowSum / toFloat below).toModel.unpack := by
  refine describes_double.le_value_of_holds (rounds_mean hsum hbelow hpos) (holds_of_lt hlevel) ?_
  rw [EReal.coe_le_coe_iff, le_div_iff₀ (Nat.cast_pos.mpr hpos)]
  exact_mod_cast h

theorem value_sub_le_neg_one {x y : Float} (hx : double.IsNumber x.toModel.unpack)
    (hy : double.IsNumber y.toModel.unpack) (hxn : value x.toModel.unpack ≤ ((n : ℝ) : EReal))
    (hyn : (((n + 1 : Nat) : ℝ) : EReal) ≤ value y.toModel.unpack) :
    double.IsNumber (x - y).toModel.unpack ∧ value (x - y).toModel.unpack ≤ -1 := by
  have hone : double.Holds (((1 : Nat) : ℝ) : EReal) := holds_of_lt (by decide)
  have hs : double.Rounds (value x.toModel.unpack - value y.toModel.unpack)
      (x - y).toModel.unpack :=
    describes_double.rounds_sub hx hy (.inr (ne_of_gt (lt_of_lt_of_le (EReal.bot_lt_coe _) hyn)))
      (.inl (ne_of_lt (lt_of_le_of_lt hxn (EReal.coe_lt_top _))))
  have hle := EReal.sub_le_sub hxn hyn
  rw [← EReal.coe_sub, Nat.cast_succ, sub_add_cancel_left] at hle
  rw [Nat.cast_one] at hone
  exact ⟨hs.isNumber, describes_double.value_le_of_holds hs hone.neg hle⟩

-- The means of the two classes are on either side of the level, so they are one apart at least.
theorem one_le_value_variance (hpos : 0 < below) (hpos' : 0 < above)
    (hclasses : below + above < 2 ^ 53) (hbelowSum : belowSum ≤ level * below)
    (haboveSum : (level + 1) * above ≤ aboveSum) (hsums : belowSum + aboveSum < 2 ^ 53) :
    double.IsNumber (variance below belowSum above aboveSum).toModel.unpack ∧
      1 ≤ value (variance below belowSum above aboveSum).toModel.unpack := by
  have hbelow : below < 2 ^ 53 := by omega
  have habove : above < 2 ^ 53 := by omega
  have hsum : belowSum < 2 ^ 53 := by omega
  have hsum' : aboveSum < 2 ^ 53 := by omega
  have hlevel : level + 1 < 2 ^ 53 := by
    have hle := Nat.le_mul_of_pos_right (level + 1) hpos'
    omega
  have hne : ¬(below = 0 ∨ above = 0) := by omega
  have hone (k : Nat) (hk : 0 < k) (hlt : k < 2 ^ 53) :
      1 ≤ value (toFloat k).toModel.unpack := by
    rw [value_toFloat_nat hlt, ← EReal.coe_one, EReal.coe_le_coe_iff]
    exact Nat.one_le_cast.mpr hk
  have hdistance := value_sub_le_neg_one (rounds_mean hsum hbelow hpos).isNumber
    (rounds_mean hsum' habove hpos').isNumber
    (value_mean_le hsum hbelow hpos (Nat.lt_of_succ_lt hlevel) hbelowSum)
    (le_value_mean hsum' habove hpos' hlevel haboveSum)
  have hsquare := one_le_value_square hdistance.left hdistance.right
  have hweights := one_le_value_mul (rounds_toFloat_nat hbelow).isNumber
    (rounds_toFloat_nat habove).isNumber (hone below hpos hbelow) (hone above hpos' habove)
  rw [variance, if_neg hne]
  exact one_le_value_mul hweights.left hsquare.left hweights.right hsquare.right

end Variance

section Splitting

variable {samples : List UInt8} {level : Nat}

-- There are samples on both sides of the level.
structure Splits (samples : List UInt8) (level : Nat) : Prop where
  dark  : dark samples level ≠ []
  light : light samples level ≠ []

-- The weights and the sums of the samples are whole numbers that are calculated with as they are.
structure HasExactSums (samples : List UInt8) : Prop where
  length : samples.length < 2 ^ 53
  sum    : sampleSum samples < 2 ^ 53

theorem sampleSum_dark_le :
    sampleSum (dark samples level) ≤ level * (dark samples level).length := by
  have h := List.sum_le_card_nsmul ((dark samples level).map UInt8.toNat) level ?_
  case refine_1 =>
    intro n hn
    obtain ⟨v, hv, rfl⟩ := List.mem_map.mp hn
    exact of_decide_eq_true (List.mem_filter.mp hv).right
  rwa [List.length_map, nsmul_eq_mul, Nat.cast_id, Nat.mul_comm] at h

theorem le_sampleSum_light :
    (level + 1) * (light samples level).length ≤ sampleSum (light samples level) := by
  have h := List.card_nsmul_le_sum ((light samples level).map UInt8.toNat) (level + 1) ?_
  case refine_1 =>
    intro n hn
    obtain ⟨v, hv, rfl⟩ := List.mem_map.mp hn
    exact of_decide_eq_true (List.mem_filter.mp hv).right
  rwa [List.length_map, nsmul_eq_mul, Nat.cast_id, Nat.mul_comm] at h

-- The sums of fewer than `2 ^ 45` samples are never too large for that.
theorem hasExactSums_of_length (h : samples.length < 2 ^ 45) : HasExactSums samples := by
  have hall : dark samples 255 = samples := dark_eq_darker.trans darker_size
  have hsum := @sampleSum_dark_le samples 255
  rw [hall] at hsum
  exact ⟨by omega, by omega⟩

theorem one_le_value_score (h : HasExactSums samples) (hs : Splits samples level) :
    double.IsNumber (score samples level).toModel.unpack ∧
      1 ≤ value (score samples level).toModel.unpack := by
  refine one_le_value_variance (List.length_pos_of_ne_nil hs.dark)
    (List.length_pos_of_ne_nil hs.light) ?_ sampleSum_dark_le le_sampleSum_light ?_
  case refine_1 =>
    rw [← List.length_append, dark_append_light_perm.length_eq]
    exact h.length
  case refine_2 =>
    rw [← sampleSum_append, sampleSum_perm dark_append_light_perm]
    exact h.sum

-- A level that leaves one side empty has no score.
theorem score_of_not_splits (hs : ¬Splits samples level) : score samples level = 0 := by
  refine variance_of_none ?_
  by_contra hne
  obtain ⟨hd, hl⟩ := not_or.mp hne
  exact hs ⟨mt List.length_eq_zero_iff.mpr hd, mt List.length_eq_zero_iff.mpr hl⟩

theorem isNumber_score (h : HasExactSums samples) :
    double.IsNumber (score samples level).toModel.unpack := by
  by_cases hs : Splits samples level
  case pos => exact (one_le_value_score h hs).left
  case neg =>
    rw [score_of_not_splits hs]
    exact isNumber_zero

theorem splits_of_pos (h : 0 < value (score samples level).toModel.unpack) :
    Splits samples level := by
  by_contra hs
  rw [score_of_not_splits hs] at h
  exact lt_irrefl _ h

end Splitting

section Scan

variable {scores : List Float} {cutoff top : Float} {level first : Nat}

-- The first of the largest scores is found, unless none is larger than what was found before.
theorem best_spec (hs : ∀ s ∈ scores, double.IsNumber s.toModel.unpack)
    (htop : double.IsNumber top.toModel.unpack) :
    (best level (first, top) scores = (first, top) ∧
        ∀ s ∈ scores, value s.toModel.unpack ≤ value top.toModel.unpack) ∨
      ∃ i s, scores[i]? = some s ∧ best level (first, top) scores = (level + i, s) ∧
        value top.toModel.unpack < value s.toModel.unpack ∧
        (∀ r ∈ scores, value r.toModel.unpack ≤ value s.toModel.unpack) ∧
        ∀ j < i, ∀ r ∈ scores[j]?, value r.toModel.unpack < value s.toModel.unpack := by
  induction scores generalizing level first top
  case nil => exact .inl ⟨rfl, fun _ h => absurd h List.not_mem_nil⟩
  case cons score rest ih =>
    obtain ⟨hscore, hrest⟩ := List.forall_mem_cons.mp hs
    rw [best]
    by_cases hlt : top < score
    case pos =>
      rw [if_pos hlt]
      have hlt := (lt_iff_value_lt htop hscore).mp hlt
      obtain ⟨hbest, hle⟩ | ⟨i, s, hi, hbest, hs, hle, hfirst⟩ :=
        @ih score (level + 1) level hrest hscore
      case inl =>
        refine .inr ⟨0, score, rfl, hbest, hlt, List.forall_mem_cons.mpr ⟨le_refl _, hle⟩, ?_⟩
        exact fun j hj => absurd hj (Nat.not_lt_zero j)
      case inr =>
        refine .inr ⟨i + 1, s, hi, ?_, hlt.trans hs, List.forall_mem_cons.mpr ⟨hs.le, hle⟩, ?_⟩
        · rw [hbest, Nat.add_assoc, Nat.add_comm 1]
        · rintro (_ | j) hj r hr
          case zero => exact (Option.some.inj hr) ▸ hs
          case succ => exact hfirst j (Nat.lt_of_succ_lt_succ hj) r hr
    case neg =>
      rw [if_neg hlt]
      have hge := not_lt.mp (mt (lt_iff_value_lt htop hscore).mpr hlt)
      obtain ⟨hbest, hle⟩ | ⟨i, s, hi, hbest, hs, hle, hfirst⟩ :=
        @ih top (level + 1) first hrest htop
      case inl => exact .inl ⟨hbest, List.forall_mem_cons.mpr ⟨hge, hle⟩⟩
      case inr =>
        have hscore := lt_of_le_of_lt hge hs
        refine .inr ⟨i + 1, s, hi, ?_, hs, List.forall_mem_cons.mpr ⟨hscore.le, hle⟩, ?_⟩
        · rw [hbest, Nat.add_assoc, Nat.add_comm 1]
        · rintro (_ | j) hj r hr
          case zero => exact (Option.some.inj hr) ▸ hscore
          case succ => exact hfirst j (Nat.lt_of_succ_lt_succ hj) r hr

-- Only a level that reaches the cutoff is chosen.
theorem valley_eq_some {found : Option (Nat × Nat)} {pairs : List (Nat × Float)} {k count : Nat}
    (h : valley cutoff level found pairs = some (k, count)) :
    found = some (k, count) ∨ ∃ i s, pairs[i]? = some (count, s) ∧ k = level + i ∧ cutoff ≤ s := by
  induction pairs generalizing level found
  case nil => exact .inl h
  case cons pair pairs ih =>
    rw [valley] at h
    obtain hf | ⟨i, s, hi, hk, hc⟩ := ih h
    case inl =>
      split at hf
      case isTrue hbetter =>
        cases hf
        exact .inr ⟨0, pair.2, rfl, rfl, hbetter.left⟩
      case isFalse => exact .inl hf
    case inr => exact .inr ⟨i + 1, s, hi, by omega, hc⟩

end Scan

section Histogram

variable {samples : Array UInt8} {fraction : Float32} {level : Nat} {top : Float}

-- Less than the whole of a score is given away, so what is left of it is above zero.
theorem cutoff_pos (htop : double.IsNumber top.toModel.unpack) (hone : 1 ≤ value top.toModel.unpack)
    (hf : fraction < 1) :
    double.IsNumber (top * (1 - widen fraction)).toModel.unpack ∧
      0 < value (top * (1 - widen fraction)).toModel.unpack := by
  have hx := (isNumber_of_single_lt hf).left
  have hw := (rounds_widen hx).isNumber
  have hlt := value_lt_of_single_lt hf
  rw [single_value_one, ← value_widen hx] at hlt
  have hunit : double.Holds ((1 / 2 ^ double.unit : ℝ) : EReal) := by
    exact_mod_cast @Describes.holds_div_two_pow _ _ describes_double 1 _ (by decide) (Nat.le_refl _)
  have hpos : (0 : EReal) < ((1 / 2 ^ double.unit : ℝ) : EReal) := EReal.coe_pos.mpr (by positivity)
  have hbot : (1 : EReal) ≠ ⊥ := EReal.coe_ne_bot 1
  have htop1 : (1 : EReal) ≠ ⊤ := EReal.coe_ne_top 1
  have hrest : double.Rounds (1 - value (widen fraction).toModel.unpack)
      (1 - widen fraction).toModel.unpack := by
    have hs := describes_double.rounds_sub isNumber_one hw (.inl (value_one ▸ hbot))
      (.inl (value_one ▸ htop1))
    rwa [value_one] at hs
  have hle := describes_double.le_value_of_holds hrest hunit (hw.le_one_sub_value hlt)
  have hrestpos := lt_of_lt_of_le hpos hle
  have hm := rounds_mul_of_ne_zero htop hrest.isNumber (ne_zero_of_one_le hone) (ne_of_gt hrestpos)
  have hprod := mul_le_mul_of_nonneg_right hone hrestpos.le
  rw [one_mul] at hprod
  exact ⟨hm.isNumber,
    lt_of_lt_of_le hpos (describes_double.le_value_of_holds hm hunit (hle.trans hprod))⟩

theorem scores_histogram :
    scores (histogram samples).toList = (List.range 256).map (score samples.toList) := by
  rw [toList_histogram]
  exact scores_eq

theorem zip_histogram :
    (histogram samples).toList.zip ((List.range 256).map (score samples.toList)) =
      (List.range 256).map fun level =>
        (countOf samples.toList level, score samples.toList level) := by
  rw [toList_histogram]
  exact List.zip_map' ..

theorem lt_and_eq_of_getElem?_map_range {α : Type} {f : Nat → α} {n i : Nat} {a : α}
    (h : ((List.range n).map f)[i]? = some a) : i < n ∧ a = f i := by
  rw [List.getElem?_map] at h
  obtain ⟨j, hj, rfl⟩ := Option.map_eq_some_iff.mp h
  obtain ⟨hi, rfl⟩ := List.getElem?_eq_some_iff.mp hj
  rw [List.length_range] at hi
  exact ⟨hi, by rw [List.getElem_range]⟩

theorem isNumber_of_mem_scores (h : HasExactSums samples.toList) :
    ∀ s ∈ (List.range 256).map (score samples.toList), double.IsNumber s.toModel.unpack := by
  intro s hs
  obtain ⟨other, -, rfl⟩ := List.mem_map.mp hs
  exact isNumber_score h

theorem otsuLevel_histogram : otsuLevel (histogram samples) =
    .ofNat (best 0 (0, 0) ((List.range 256).map (score samples.toList))).1 := by
  rw [otsuLevel, scores_histogram]

-- The smallest level of the largest score, and zero if no score is above zero.
theorem otsuLevel_spec (h : HasExactSums samples.toList) :
    (otsuLevel (histogram samples) = 0 ∧ ∀ level < 256, score samples.toList level ≤ 0) ∨
      ∃ best < 256, otsuLevel (histogram samples) = .ofNat best ∧
        0 < score samples.toList best ∧
        (∀ level < 256, score samples.toList level ≤ score samples.toList best) ∧
        ∀ level < best, score samples.toList level < score samples.toList best := by
  have hmem (level : Nat) (hlt : level < 256) :
      score samples.toList level ∈ (List.range 256).map (score samples.toList) :=
    List.mem_map.mpr ⟨level, List.mem_range.mpr hlt, rfl⟩
  rw [otsuLevel_histogram]
  obtain ⟨hbest, hle⟩ | ⟨i, s, hi, hbest, hpos, hle, hfirst⟩ :=
    @best_spec _ 0 0 0 (isNumber_of_mem_scores h) isNumber_zero
  case inl =>
    rw [hbest]
    exact .inl ⟨rfl, fun level hlt =>
      (le_iff_value_le (isNumber_score h) isNumber_zero).mpr (hle _ (hmem level hlt))⟩
  case inr =>
    obtain ⟨hlt, rfl⟩ := lt_and_eq_of_getElem?_map_range hi
    rw [hbest, Nat.zero_add]
    refine .inr ⟨i, hlt, rfl, (lt_iff_value_lt isNumber_zero (isNumber_score h)).mpr hpos, ?_, ?_⟩
    case refine_1 =>
      exact fun level hlt =>
        (le_iff_value_le (isNumber_score h) (isNumber_score h)).mpr (hle _ (hmem level hlt))
    case refine_2 =>
      intro level hlevel
      refine (lt_iff_value_lt (isNumber_score h) (isNumber_score h)).mpr (hfirst level hlevel _ ?_)
      rw [List.getElem?_map, List.getElem?_range (Nat.lt_trans hlevel hlt)]
      rfl

theorem tileThreshold_splits_or (h : HasExactSums samples.toList) (hf : fraction < 1) :
    ∃ level < 256, tileThreshold samples fraction = .ofNat level ∧
      (Splits samples.toList level ∨ level = 0 ∧ ∀ other < 256, ¬Splits samples.toList other) := by
  have hbest := @best_spec _ 0 0 0 (isNumber_of_mem_scores h) isNumber_zero
  rw [tileThreshold]
  simp only [scores_histogram, zip_histogram, otsuLevel_histogram]
  obtain ⟨hbest, hle⟩ | ⟨i, s, hi, hbest, hpos, -⟩ := hbest
  case inl =>
    refine ⟨0, by decide, ?_, .inr ⟨rfl, fun other hlt hs => ?_⟩⟩
    case refine_1 =>
      rw [hbest, if_pos (by decide : (0 : Float) ≤ 0), ite_self]
    case refine_2 =>
      have hscore := hle _ (List.mem_map.mpr ⟨other, List.mem_range.mpr hlt, rfl⟩)
      exact not_lt.mpr hscore (lt_of_lt_of_le zero_lt_one (one_le_value_score h hs).right)
  case inr =>
    obtain ⟨hlt, rfl⟩ := lt_and_eq_of_getElem?_map_range hi
    have hsplits := splits_of_pos (lt_of_le_of_lt (le_refl _) hpos)
    obtain ⟨hnumber, hone⟩ := one_le_value_score h hsplits
    obtain ⟨hcutoff, hcut⟩ := cutoff_pos hnumber hone hf
    rw [hbest, Nat.zero_add]
    split
    case isTrue => exact ⟨i, hlt, rfl, .inl hsplits⟩
    split
    case isTrue => exact ⟨i, hlt, rfl, .inl hsplits⟩
    split
    case h_2 => exact ⟨i, hlt, rfl, .inl hsplits⟩
    case h_1 k count hk =>
      obtain hnone | ⟨j, s, hj, rfl, hle⟩ := valley_eq_some hk
      case inl => exact absurd hnone (Option.some_ne_none _).symm
      case inr =>
        obtain ⟨hlt, hpair⟩ := lt_and_eq_of_getElem?_map_range hj
        obtain ⟨-, rfl⟩ := Prod.mk.inj hpair
        refine ⟨0 + j, by omega, rfl, .inl ?_⟩
        rw [Nat.zero_add]
        exact splits_of_pos (lt_of_lt_of_le hcut (value_le_of_le hle))

theorem exists_le_of_dark {t : Nat} (ht : t < 256) (h : dark samples.toList t ≠ []) :
    ∃ a ∈ samples, a ≤ .ofNat t := by
  obtain ⟨a, ha⟩ := List.exists_mem_of_ne_nil _ h
  obtain ⟨ha, hle⟩ := List.mem_filter.mp ha
  refine ⟨a, Array.mem_toList_iff.mp ha, UInt8.le_iff_toNat_le.mpr ?_⟩
  rw [UInt8.toNat_ofNat_of_lt' ht]
  exact of_decide_eq_true hle

theorem exists_lt_of_light {t : Nat} (ht : t < 256) (h : light samples.toList t ≠ []) :
    ∃ a ∈ samples, .ofNat t < a := by
  obtain ⟨a, ha⟩ := List.exists_mem_of_ne_nil _ h
  obtain ⟨ha, hlt⟩ := List.mem_filter.mp ha
  refine ⟨a, Array.mem_toList_iff.mp ha, UInt8.lt_iff_toNat_lt.mpr ?_⟩
  rw [UInt8.toNat_ofNat_of_lt' ht]
  exact of_decide_eq_true hlt

-- The level of the darker one of two samples has the lighter one above it.
theorem splits_of_lt {a b : UInt8} (ha : a ∈ samples) (hb : b ∈ samples) (h : a < b) :
    Splits samples.toList a.toNat :=
  ⟨List.ne_nil_of_mem (List.mem_filter.mpr ⟨ha.val, decide_eq_true (Nat.le_refl _)⟩),
    List.ne_nil_of_mem (List.mem_filter.mpr ⟨hb.val, decide_eq_true (UInt8.lt_iff_toNat_lt.mp h)⟩)⟩

theorem exists_splits_of_ne {a b : UInt8} (ha : a ∈ samples) (hb : b ∈ samples) (h : a ≠ b) :
    ∃ level < 256, Splits samples.toList level := by
  obtain hlt | hlt := UInt8.lt_or_lt_of_ne h
  case inl => exact ⟨_, a.toNat_lt, splits_of_lt ha hb hlt⟩
  case inr => exact ⟨_, b.toNat_lt, splits_of_lt hb ha hlt⟩

theorem not_splits_of_eq {v : UInt8} (h : ∀ a ∈ samples, a = v) : ¬Splits samples.toList level := by
  rintro ⟨hdark, hlight⟩
  obtain ⟨a, ha⟩ := List.exists_mem_of_ne_nil _ hdark
  obtain ⟨b, hb⟩ := List.exists_mem_of_ne_nil _ hlight
  obtain ⟨ha, hle⟩ := List.mem_filter.mp ha
  obtain ⟨hb, hlt⟩ := List.mem_filter.mp hb
  rw [h a (Array.mem_toList_iff.mp ha)] at hle
  rw [h b (Array.mem_toList_iff.mp hb)] at hlt
  exact Nat.not_lt.mpr (of_decide_eq_true hle) (of_decide_eq_true hlt)

end Histogram

end Otsu

section Threshold

variable {samples : Array UInt8} {fraction : Float32}

-- A tile with two different samples has some that are no lighter than its threshold, and some that
-- are. The threshold of a tile of one value is zero.
theorem tileThreshold_splits (h : Otsu.HasExactSums samples.toList) (hf : fraction < 1) :
    ((∃ a ∈ samples, ∃ b ∈ samples, a ≠ b) →
      (∃ a ∈ samples, a ≤ tileThreshold samples fraction) ∧
        ∃ b ∈ samples, tileThreshold samples fraction < b) ∧
    ∀ v, (∀ a ∈ samples, a = v) →
      tileThreshold samples fraction = 0 ∧
        (v = 0 → ∀ a ∈ samples, a ≤ tileThreshold samples fraction) ∧
        (v ≠ 0 → ∀ a ∈ samples, tileThreshold samples fraction < a) := by
  obtain ⟨level, hlt, ht, hlevel⟩ := Otsu.tileThreshold_splits_or h hf
  rw [ht]
  constructor
  case left =>
    rintro ⟨a, ha, b, hb, hne⟩
    obtain ⟨other, hother, hs⟩ := Otsu.exists_splits_of_ne ha hb hne
    have hsplits := hlevel.resolve_right fun hnone => hnone.right other hother hs
    exact ⟨Otsu.exists_le_of_dark hlt hsplits.dark, Otsu.exists_lt_of_light hlt hsplits.light⟩
  case right =>
    intro v hv
    obtain ⟨rfl, -⟩ := hlevel.resolve_left (Otsu.not_splits_of_eq hv)
    refine ⟨rfl, fun hz a ha => ?_, fun hz a ha => ?_⟩
    case refine_1 => exact (hv a ha).trans hz ▸ UInt8.le_refl _
    case refine_2 => exact hv a ha ▸ UInt8.pos_iff_ne_zero.mpr hz

theorem tileThreshold_splits_lightAndDark :
    ((∃ a ∈ #[250, 7, 250], a ≤ tileThreshold #[250, 7, 250] 0.5) ∧
      ∃ b ∈ #[250, 7, 250], tileThreshold #[250, 7, 250] 0.5 < b) ∧
    tileThreshold #[9, 9] 0.5 = 0 :=
  have hf : (0.5 : Float32) < 1 := by decide +kernel
  ⟨(tileThreshold_splits ⟨by decide, by decide⟩ hf).left ⟨250, by simp, 7, by simp, by decide⟩,
    ((tileThreshold_splits ⟨by decide, by decide⟩ hf).right 9 (by simp)).left⟩

end Threshold

end PagePrep
