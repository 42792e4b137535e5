import Mathlib
import PagePrep.Gray.Otsu
import PagePrep.Proofs.Number.Native

-- The threshold of a tile that is black and white already keeps it as it is. All levels between
-- black and white split such a tile alike, so the first of them is the best, and the valley begins
-- behind it.

namespace PagePrep

section Histogram

variable {samples : Array UInt8} {counts : Array Nat} {v : Nat}

theorem getElem?_foldl_modify (xs : List UInt8) :
    (xs.foldl (fun counts v => counts.modify v.toNat (· + 1)) counts)[v]? =
      counts[v]?.map (· + xs.countP (·.toNat = v)) := by
  induction xs generalizing counts
  case nil => simp
  case cons x xs ih =>
    rw [List.foldl_cons, ih, Array.getElem?_modify, List.countP_cons]
    by_cases hx : x.toNat = v
    case pos => simp [hx, Function.comp_def, Nat.add_assoc, Nat.add_comm 1]
    case neg => simp [hx]

theorem toList_histogram :
    (histogram samples).toList =
      (List.range 256).map fun v => samples.toList.countP (·.toNat = v) := by
  refine List.ext_getElem? fun v => ?_
  rw [Array.getElem?_toList, histogram, ←Array.foldl_toList, getElem?_foldl_modify,
    List.getElem?_map, Array.getElem?_replicate]
  by_cases hv : v < 256
  case pos => simp [hv]
  case neg => simp [hv]

theorem le_size_of_mem_histogram {count : Nat} (h : count ∈ histogram samples) :
    count ≤ samples.size := by
  rw [←Array.mem_toList_iff, toList_histogram, List.mem_map] at h
  obtain ⟨v, -, rfl⟩ := h
  exact List.countP_le_length

-- The counts of the levels, where there are only black and white samples.
def bilevel (black white : Nat) : List Nat :=
  black :: (List.replicate 254 0 ++ [white])

theorem exists_toList_histogram (h : ∀ v ∈ samples, v = 0 ∨ v = 255) :
    ∃ black white, (histogram samples).toList = bilevel black white := by
  have hrange : List.range 256 = 0 :: (List.range' 1 254 ++ [255]) := by decide +kernel
  have hzero : ∀ v ∈ List.range' 1 254, samples.toList.countP (·.toNat = v) = 0 := by
    intro v hv
    rw [List.mem_range'_1] at hv
    refine List.countP_eq_zero.mpr fun x hx => ?_
    obtain rfl | rfl := h x (Array.mem_toList_iff.mp hx)
    · simp
      omega
    · simp
      omega
  refine ⟨samples.toList.countP (·.toNat = 0), samples.toList.countP (·.toNat = 255), ?_⟩
  rw [toList_histogram, hrange, List.map_cons, List.map_append, List.map_congr_left hzero,
    List.map_const', List.length_range', List.map_singleton, bilevel]

end Histogram

namespace Otsu

variable {total totalSum level below belowSum k : Nat} {s cutoff : Float} {rest : List Nat}

theorem scoresFrom_replicate :
    scoresFrom total totalSum level below belowSum (List.replicate k 0 ++ rest) =
      List.replicate k (variance below belowSum (total - below) (totalSum - belowSum)) ++
        scoresFrom total totalSum (level + k) below belowSum rest := by
  induction k generalizing level
  case zero => rfl
  case succ k ih =>
    simp only [List.replicate_succ, List.cons_append, scoresFrom, Nat.add_zero, Nat.mul_zero, ih,
      Nat.add_assoc, Nat.add_comm 1]

theorem variance_of_none {above aboveSum : Nat} (h : below = 0 ∨ above = 0) :
    variance below belowSum above aboveSum = 0 :=
  if_pos h

theorem foldr_bilevel (black white : Nat) :
    (bilevel black white).foldr (· + ·) 0 = black + white := by
  have hzeros (k : Nat) : (List.replicate k 0).foldr (· + ·) white = white := by
    induction k
    case zero      => rfl
    case succ k ih => rw [List.replicate_succ, List.foldr_cons, ih, Nat.zero_add]
  rw [bilevel, List.foldr_cons, List.foldr_append, List.foldr_cons, List.foldr_nil, Nat.add_zero,
    hzeros]

-- Levels without a sample of their own split the samples as the level before them does.
theorem scores_bilevel (black white : Nat) :
    ∃ s, scores (bilevel black white) = s :: (List.replicate 254 s ++ [0]) ∧
      (0 < s → 0 < black ∧ 0 < white) := by
  refine ⟨variance black 0 white (weighted 0 (bilevel black white)), ?_, ?_⟩
  · have habove : black + white - black = white := Nat.add_sub_cancel_left ..
    rw [scores, foldr_bilevel]
    generalize weighted 0 (bilevel black white) = sum
    rw [bilevel, scoresFrom]
    simp only [Nat.zero_add, Nat.zero_mul, scoresFrom_replicate, scoresFrom, habove, Nat.sub_zero]
    rw [variance_of_none (.inr (Nat.sub_self _))]
  · intro hs
    by_contra hz
    rw [variance_of_none (by omega)] at hs
    exact FloatOrder.not_lt_self 0 hs

theorem best_replicate {top : Float} {first : Nat} {rest : List Float} (h : ¬top < s) :
    best level (first, top) (List.replicate k s ++ rest) = best (level + k) (first, top) rest := by
  induction k generalizing level
  case zero => rfl
  case succ k ih =>
    rw [List.replicate_succ, List.cons_append, best, if_neg h, ih, Nat.add_assoc, Nat.add_comm 1]

theorem best_singleton {top : Float} {first : Nat} (h : ¬top < s) :
    best level (first, top) [s] = (first, top) := by
  rw [best, if_neg h, best]

-- The first level is the best, unless there is nothing to split.
theorem best_flat (s : Float) (k : Nat) :
    best 0 (0, 0) (s :: (List.replicate k s ++ [0])) = (0, if 0 < s then s else 0) := by
  rw [best]
  by_cases hs : 0 < s
  case pos =>
    rw [if_pos hs, if_pos hs, best_replicate (FloatOrder.not_lt_self s),
      best_singleton (FloatOrder.not_lt_of_lt hs)]
  case neg =>
    rw [if_neg hs, if_neg hs, best_replicate hs, best_singleton (FloatOrder.not_lt_self 0)]

theorem valley_replicate {count : Nat} {found : Option (Nat × Nat)} {rest : List (Nat × Float)}
    (h : ¬(cutoff ≤ s ∧ found.all fun f => count < f.2)) :
    valley cutoff level found (List.replicate k (count, s) ++ rest) =
      valley cutoff (level + k) found rest := by
  induction k generalizing level
  case zero => rfl
  case succ k ih =>
    rw [List.replicate_succ, List.cons_append, valley, if_neg h, ih, Nat.add_assoc, Nat.add_comm 1]

-- White does not reach the cutoff if black does not, and the levels between have no samples.
theorem valley_flat {black white : Nat} (hblack : 0 < black) (hs : 0 < s) (k : Nat) :
    valley cutoff 0 none ((black, s) :: (0, s) :: (List.replicate k (0, s) ++ [(white, 0)])) =
      if cutoff ≤ s then some (1, 0) else none := by
  by_cases hc : cutoff ≤ s
  case pos =>
    rw [if_pos hc, valley, if_pos ⟨hc, rfl⟩, valley, if_pos ⟨hc, by simpa using hblack⟩,
      valley_replicate (by simp), valley, if_neg (by simp), valley]
  case neg =>
    rw [if_neg hc, valley, if_neg (hc ·.left), valley, if_neg (hc ·.left),
      valley_replicate (hc ·.left), valley,
      if_neg (hc <| FloatOrder.le_of_lt <| FloatOrder.lt_of_le ·.left hs), valley]

theorem zip_bilevel (black white : Nat) (s : Float) :
    (bilevel black white).zip (s :: (List.replicate 254 s ++ [0])) =
      (black, s) :: (0, s) :: (List.replicate 253 (0, s) ++ [(white, 0)]) := by
  have hlength : (List.replicate 254 0).length = (List.replicate 254 s).length := by
    rw [List.length_replicate, List.length_replicate]
  rw [bilevel, List.zip_cons_cons, List.zip_append hlength, List.zip_replicate']
  rfl

end Otsu

-- A pixel that is white is lighter than the threshold, whatever fraction of the score is asked for.
theorem tileThreshold_le_one {samples : Array UInt8} (h : ∀ v ∈ samples, v = 0 ∨ v = 255)
    (scoreFraction : Float32) : tileThreshold samples scoreFraction ≤ 1 := by
  obtain ⟨black, white, hcounts⟩ := exists_toList_histogram h
  obtain ⟨s, hscores, hpos⟩ := Otsu.scores_bilevel black white
  have hotsu : otsuLevel (histogram samples) = 0 := by
    rw [otsuLevel, hcounts, hscores, Otsu.best_flat]
    rfl
  rw [tileThreshold]
  simp only [hcounts, hscores, Otsu.best_flat, hotsu, Otsu.zip_bilevel]
  split
  case isTrue => decide
  case isFalse =>
    by_cases hs : 0 < s
    case neg =>
      rw [if_neg hs, if_pos (by decide)]
      decide
    case pos =>
      rw [if_pos hs, Otsu.valley_flat (hpos hs).left hs]
      by_cases hc : s * (1 - widen scoreFraction) ≤ s
      case pos =>
        simp only [if_pos hc]
        split <;> decide
      case neg =>
        simp only [if_neg hc]
        split <;> decide

end PagePrep
