import Mathlib
import PagePrep.Gray.BoxFilter
import PagePrep.Proofs.Grid

-- A box filter puts a mean of its neighbors in the place of each sample, so it does not leave the
-- range that they are in.

namespace PagePrep

section Lines

variable {samples : Array UInt8} {sums : Array Nat} {n r x : Nat}

-- The sums of the first samples, as far as `n` of them.
structure SumsUpTo (samples : Array UInt8) (n : Nat) (sums : Array Nat) : Prop where
  size : sums.size = n + 1
  sum  : ∀ k ≤ n, sums.getD k 0 = ∑ i ∈ Finset.range k, (samples.getD i 0).toNat

theorem SumsUpTo.push (h : SumsUpTo samples n sums) (hn : n < samples.size) :
    SumsUpTo samples (n + 1) (sums.push (sums.back?.getD 0 + samples[n].toNat)) := by
  have hlast : sums.back?.getD 0 = ∑ i ∈ Finset.range n, (samples.getD i 0).toNat := by
    rw [←h.sum n (Nat.le_refl n), Array.back?, h.size]
    simp [Array.getD_eq_getD_getElem?]
  constructor
  case size => rw [Array.size_push, h.size]
  case sum =>
    intro k hk
    rw [Array.getD_eq_getD_getElem?, Array.getElem?_push, h.size]
    by_cases hk : k = n + 1
    case pos => simp [hk, hlast, Finset.sum_range_succ, hn]
    case neg =>
      rw [if_neg hk, ←Array.getD_eq_getD_getElem?]
      exact h.sum k (by omega)

theorem sumsUpTo_runningSums : SumsUpTo samples samples.size (runningSums samples) := by
  refine Array.foldl_induction (SumsUpTo samples) ?_ fun i _ h => h.push i.isLt
  constructor
  case size => rfl
  case sum =>
    intro k hk
    cases Nat.le_zero.mp hk
    rfl

-- The sample at a place of a line on which its last sample goes on.
def sampleAt (samples : Array UInt8) (i : Nat) : Nat :=
  (samples.getD (min i (samples.size - 1)) 0).toNat

-- Where the window is behind an end of the line there is one sample again and again.
theorem sum_sampleAt_const {f : Nat → Nat} {i : Nat}
    (h : ∀ k < n, min (f k) (samples.size - 1) = i) :
    ∑ k ∈ Finset.range n, sampleAt samples (f k) = n * (samples.getD i 0).toNat := by
  have hconst : ∀ k ∈ Finset.range n, sampleAt samples (f k) = (samples.getD i 0).toNat :=
    fun k hk => by rw [sampleAt, h k (Finset.mem_range.mp hk)]
  rw [Finset.sum_congr rfl hconst, Finset.sum_const, Finset.card_range, smul_eq_mul]

-- The window begins before the line, lies on it and ends behind it.
theorem windowSum_eq (hx : x < samples.size) :
    windowSum samples (runningSums samples) r x =
      ∑ k ∈ Finset.range (2 * r + 1), sampleAt samples (x + k - r) := by
  obtain ⟨last, hlast⟩ : ∃ last, samples.size = last + 1 := ⟨samples.size - 1, by omega⟩
  obtain ⟨hi, hhi⟩ : ∃ hi, hi = min (x + r) last := ⟨_, rfl⟩
  have hsum (k : Nat) (hk : k ≤ last + 1) := sumsUpTo_runningSums.sum k (hlast ▸ hk)
  have hbefore : ∑ k ∈ Finset.range (r - x), sampleAt samples (x + k - r) =
      (r - x) * (samples.getD 0 0).toNat :=
    sum_sampleAt_const fun k hk => by omega
  have hbehind : ∑ k ∈ Finset.range (x + r - last),
      sampleAt samples (x + (r - x + (hi + 1 - (x - r)) + k) - r) =
        (x + r - last) * (samples.getD last 0).toNat :=
    sum_sampleAt_const fun k hk => by omega
  have hon : ∑ k ∈ Finset.range (hi + 1 - (x - r)), sampleAt samples (x + (r - x + k) - r) =
      (runningSums samples).getD (hi + 1) 0 - (runningSums samples).getD (x - r) 0 := by
    have hend : hi + 1 = (x - r) + (hi + 1 - (x - r)) := by omega
    rw [hsum (hi + 1) (by omega), hsum (x - r) (by omega)]
    nth_rewrite 2 [hend]
    rw [Finset.sum_range_add, Nat.add_sub_cancel_left]
    refine Finset.sum_congr rfl fun k hk => ?_
    have hk := Finset.mem_range.mp hk
    have hplace : min (x + (r - x + k) - r) (samples.size - 1) = x - r + k := by omega
    rw [sampleAt, hplace]
  have hsplit : 2 * r + 1 = (r - x) + (hi + 1 - (x - r)) + (x + r - last) := by omega
  rw [hsplit, Finset.sum_range_add, Finset.sum_range_add, hbefore, hon, hbehind, windowSum, hlast,
    Nat.add_sub_cancel, ←hhi, Nat.add_comm ((r - x) * _)]

end Lines

theorem mean_between {f : Nat → Nat} {n lo hi : Nat}
    (h : ∀ k < n + 1, lo ≤ f k ∧ f k ≤ hi) :
    lo ≤ (∑ k ∈ Finset.range (n + 1), f k) / (n + 1) ∧
      (∑ k ∈ Finset.range (n + 1), f k) / (n + 1) ≤ hi := by
  have hlo := Finset.card_nsmul_le_sum (Finset.range (n + 1)) f lo fun k hk =>
    (h k (Finset.mem_range.mp hk)).left
  have hhi := Finset.sum_le_card_nsmul (Finset.range (n + 1)) f hi fun k hk =>
    (h k (Finset.mem_range.mp hk)).right
  rw [Finset.card_range, smul_eq_mul] at hlo hhi
  constructor
  case left  => rwa [Nat.le_div_iff_mul_le n.succ_pos, Nat.mul_comm]
  case right => exact Nat.div_le_of_le_mul hhi

-- Two places of a line are at most `r` apart.
def Near (r a b : UInt32) : Prop :=
  a.toNat ≤ b.toNat + r.toNat ∧ b.toNat ≤ a.toNat + r.toNat

theorem near_self (r a : UInt32) : Near r a a :=
  ⟨Nat.le_add_right .., Nat.le_add_right ..⟩

namespace GrayImage

variable {image : GrayImage} {a r rx ry x y : UInt32} {lo hi : UInt8}

theorem size_row (hy : y < image.height) : (image.row y.toNat).size = image.width.toNat := by
  have hy : y.toNat + 1 ≤ image.height.toNat := UInt32.lt_iff_toNat_lt.mp hy
  have hle : (y.toNat + 1) * image.width.toNat ≤ image.cells.size := by
    rw [image.size_cells, Nat.mul_comm image.width.toNat]
    exact Nat.mul_le_mul_right _ hy
  rw [row, Array.size_extract, Nat.min_eq_left hle, Nat.succ_mul, Nat.add_sub_cancel_left]

theorem getD_row (h : image.Contains x y) :
    (image.row y.toNat).getD x.toNat 0 = image.get x y h := by
  have hx : x.toNat < (image.row y.toNat).size := by
    rw [size_row h.right]
    exact UInt32.lt_iff_toNat_lt.mp h.left
  rw [Array.getD_eq_getD_getElem?, Array.getElem?_eq_getElem hx, Option.getD_some]
  simp only [row, Array.getElem_extract]
  rfl

theorem get?_blurRows (h : image.Contains x y) :
    (blurRows r image).get? x y = some (.ofNat
      ((∑ k ∈ Finset.range (2 * r.toNat + 1),
          sampleAt (image.row y.toNat) (x.toNat + k - r.toNat)) / (2 * r.toNat + 1))) := by
  have hx : x.toNat < (image.row y.toNat).size := by
    rw [size_row h.right]
    exact UInt32.lt_iff_toNat_lt.mp h.left
  have hy := UInt32.lt_iff_toNat_lt.mp h.right
  have hc : x < image.width ∧ y < image.height := h
  rw [blurRows, Grid.get?_ofFn, dif_pos hc, ←windowSum_eq hx]
  simp [hy]

theorem sampleAt_row {i : Nat} (h : image.Contains a y)
    (ha : min i (image.width.toNat - 1) = a.toNat) :
    sampleAt (image.row y.toNat) i = (image.get a y h).toNat := by
  rw [sampleAt, size_row h.right, ha, getD_row h]

theorem blurRows_between (h : ∀ a, Near r a x → ∀ v ∈ image.get? a y, lo ≤ v ∧ v ≤ hi) :
    ∀ v ∈ (blurRows r image).get? x y, lo ≤ v ∧ v ≤ hi := by
  intro v hv
  have hc : (blurRows r image).Contains x y :=
    Grid.isSome_get?_iff.mp <| Option.isSome_of_eq_some hv
  have hc : image.Contains x y := hc
  have hx := UInt32.lt_iff_toNat_lt.mp hc.left
  have hsample (k : Nat) (hk : k < 2 * r.toNat + 1) :
      lo.toNat ≤ sampleAt (image.row y.toNat) (x.toNat + k - r.toNat) ∧
        sampleAt (image.row y.toNat) (x.toNat + k - r.toNat) ≤ hi.toNat := by
    let a := UInt32.ofNat (min (x.toNat + k - r.toNat) (image.width.toNat - 1))
    have ha : a.toNat = min (x.toNat + k - r.toNat) (image.width.toNat - 1) :=
      UInt32.toNat_ofNat_of_lt' <| Nat.lt_of_le_of_lt
        (Nat.le_trans (Nat.min_le_right ..) (Nat.sub_le ..)) image.width.toNat_lt
    have hca : image.Contains a y := ⟨UInt32.lt_iff_toNat_lt.mpr (by omega), hc.right⟩
    rw [sampleAt_row hca ha.symm]
    have hv := h a ⟨by omega, by omega⟩ _ (Grid.get?_eq_some_get hca)
    exact ⟨UInt8.le_iff_toNat_le.mp hv.left, UInt8.le_iff_toNat_le.mp hv.right⟩
  have ⟨hlo, hhi⟩ := mean_between hsample
  cases (get?_blurRows hc).symm.trans hv
  have hmean := UInt8.toNat_ofNat_of_lt' (Nat.lt_of_le_of_lt hhi hi.toNat_lt)
  rw [UInt8.le_iff_toNat_le, UInt8.le_iff_toNat_le, hmean]
  exact ⟨hlo, hhi⟩

-- The columns are blurred as the rows of the transposed picture are.
theorem boxFilter_between
    (h : ∀ a b, Near rx a x → Near ry b y → ∀ v ∈ image.get? a b, lo ≤ v ∧ v ≤ hi) :
    ∀ v ∈ (boxFilter rx ry image).get? x y, lo ≤ v ∧ v ≤ hi := by
  rw [boxFilter, Grid.get?_transpose]
  refine blurRows_between fun b hb => ?_
  rw [Grid.get?_transpose]
  exact blurRows_between fun a ha => h a b ha hb

end GrayImage

end PagePrep
