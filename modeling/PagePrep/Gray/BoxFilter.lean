import PagePrep.Gray.Basic

namespace PagePrep

-- The sums of the first samples of a line: none of them, one, two, and so on.
def runningSums (line : Array UInt8) : Array Nat :=
  line.foldl (fun sums v => sums.push (sums.back?.getD 0 + v.toNat)) #[0]

-- The sum of the samples from `x - r` to `x + r`. Beyond either end of the line its outermost
-- sample goes on.
def windowSum (line : Array UInt8) (sums : Array Nat) (r x : Nat) : Nat :=
  let last := line.size - 1
  let lo := x - r
  let hi := min (x + r) last
  let inner := sums.getD (hi + 1) 0 - sums.getD lo 0
  inner + (r - x) * (line.getD 0 0).toNat + (x + r - last) * (line.getD last 0).toNat

namespace GrayImage

-- Each sample becomes the mean, rounded down, of its row from `r` samples before to `r` behind it.
def blurRows (r : UInt32) (image : GrayImage) : GrayImage :=
  let lines := Array.ofFn fun y : Fin image.height.toNat =>
    let line := image.row y
    (line, runningSums line)
  Grid.ofFn image.width image.height fun x y _ =>
    let (line, sums) := lines.getD y.toNat (#[], #[])
    .ofNat (windowSum line sums r.toNat x.toNat / (2 * r.toNat + 1))

-- The rows first, then the columns of the result.
def boxFilter (rx ry : UInt32) (image : GrayImage) : GrayImage :=
  (blurRows ry (blurRows rx image).transpose).transpose

end GrayImage

end PagePrep
