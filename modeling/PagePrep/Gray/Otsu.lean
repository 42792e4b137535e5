import PagePrep.Number.Layout

namespace PagePrep

-- How many samples have each of the 256 levels. No count exceeds the number of samples, so 32 bits
-- hold the counts of any tile with less than `2 ^ 32` pixels.
def histogram (samples : Array UInt8) : Array Nat :=
  samples.foldl (fun counts v => counts.modify v.toNat (· + 1)) (Array.replicate 256 0)

namespace Otsu

def toFloat (n : Nat) : Float :=
  (UInt64.ofNat n).toFloat

-- The variance between the samples up to a level and those above it. Each class has its number of
-- samples and their sum. An empty class leaves nothing to compare.
def variance (below belowSum above aboveSum : Nat) : Float :=
  if below = 0 ∨ above = 0 then
    0
  else
    let distance := toFloat belowSum / toFloat below - toFloat aboveSum / toFloat above
    toFloat below * toFloat above * (distance * distance)

-- The variances for the levels from `level` on, given the counts from there on.
def scoresFrom (total totalSum level below belowSum : Nat) : List Nat → List Float
  | []            => []
  | count :: rest =>
    let below := below + count
    let belowSum := belowSum + level * count
    variance below belowSum (total - below) (totalSum - belowSum) ::
      scoresFrom total totalSum (level + 1) below belowSum rest

-- The sum of the samples from `level` on, given the counts from there on.
def weighted (level : Nat) : List Nat → Nat
  | []            => 0
  | count :: rest => level * count + weighted (level + 1) rest

def scores (counts : List Nat) : List Float :=
  scoresFrom (counts.foldr (· + ·) 0) (weighted 0 counts) 0 0 0 counts

-- The first level whose score is the largest, and zero if no score is positive.
def best (level : Nat) (found : Nat × Float) : List Float → Nat × Float
  | []            => found
  | score :: rest => best (level + 1) (if found.2 < score then (level, score) else found) rest

-- The level that has the fewest samples, the first of these, among those of a score of at least
-- `cutoff`.
def valley (cutoff : Float) (level : Nat) (found : Option (Nat × Nat)) :
    List (Nat × Float) → Option (Nat × Nat)
  | []                     => found
  | (count, score) :: rest =>
    let better := cutoff ≤ score ∧ (found.all fun f => count < f.2)
    valley cutoff (level + 1) (if better then some (level, count) else found) rest

end Otsu

def otsuLevel (counts : Array Nat) : UInt8 :=
  .ofNat (Otsu.best 0 (0, 0) (Otsu.scores counts.toList)).1

-- The threshold that splits the samples into dark and light ones. With a fraction above zero, all
-- levels with a score within that fraction of the best are candidates, and the one in the valley
-- of the histogram wins.
def tileThreshold (samples : Array UInt8) (scoreFraction : Float32) : UInt8 :=
  let counts := histogram samples
  if scoreFraction ≤ 0 then
    otsuLevel counts
  else
    let scores := Otsu.scores counts.toList
    let top := (Otsu.best 0 (0, 0) scores).2
    let cutoff := top * (1 - widen scoreFraction)
    if top ≤ 0 then
      otsuLevel counts
    else
      match Otsu.valley cutoff 0 none (counts.toList.zip scores) with
      | some (level, _) => .ofNat level
      | none            => otsuLevel counts

end PagePrep
