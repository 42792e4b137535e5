import PagePrep.Gray.Basic
import PagePrep.Number.Text

namespace PagePrep

inductive ScaleError where
  | factor (factor : Float32)
  | emptyImage
  | tooLarge (size : Float)
deriving DecidableEq, Repr

def maxScaledSize : UInt32 := 100000

def ScaleError.reason : ScaleError → String
  | factor x   => "scale factor must be positive (got " ++ NumberStyle.message.single x ++ ")"
  | emptyImage => "image has zero dimensions"
  | tooLarge x =>
    "scaled dimension " ++ NumberStyle.message.double x ++ s!" exceeds {maxScaledSize}"

-- The whole part of a number that is at least zero. From `2 ^ 53` on there are only whole numbers.
def wholePart (x : Float) : Float :=
  if x < 9007199254740992 then x.toUInt64.toFloat else x

def scaledSize (size : UInt32) (factor : Float32) : Except ScaleError UInt32 :=
  let scaled := wholePart (size.toFloat * widen factor + 0.5)
  if maxScaledSize.toFloat < scaled then .error (.tooLarge scaled) else .ok (max scaled.toUInt32 1)

-- The source samples that make up one target sample: the first of them and the weight of each.
structure Taps where
  first   : Nat
  weights : List Float32

namespace Taps

-- The weight falls off linearly from the center on.
def triangle (x : Float32) : Float32 :=
  if x.abs < 1 then 1 - x.abs else 0

-- Rounded up; zero for a negative number.
def ceil (x : Float32) : Nat :=
  let whole := x.toUInt64
  if whole.toFloat32 < x then whole.toNat + 1 else whole.toNat

def sum (xs : List Float32) : Float32 :=
  xs.foldl (· + ·) 0

-- The taps of target sample `o` where `n` samples become `m`.
def ofSample (n m : UInt32) (o : Nat) : Taps :=
  let ratio := n.toFloat32 / m.toFloat32
  let support := if ratio < 1 then 1 else ratio
  let center := ((UInt64.ofNat o).toFloat32 + 0.5) * ratio
  let left := min (center - support).toUInt64.toNat (n.toNat - 1)
  let right := min (max (ceil (center + support)) (left + 1)) n.toNat
  let weights := (List.range (right - left)).map fun i =>
    triangle (((UInt64.ofNat (left + i)).toFloat32 - (center - 0.5)) / support)
  let total := sum weights
  ⟨left, weights.map (· / total)⟩

def all (n m : UInt32) : Array Taps :=
  Array.ofFn fun o : Fin m.toNat => ofSample n m o

-- The weighted sum of the samples, in order.
def apply (taps : Taps) (sample : Nat → Float32) : Float32 :=
  (go taps.first taps.weights 0)
where
  go : Nat → List Float32 → Float32 → Float32
    | _, [],      total => total
    | i, w :: ws, total => go (i + 1) ws (total + sample i * w)

end Taps

namespace GrayImage

-- The columns are interpolated first; only then are the rows, which are rounded to samples.
def resize (width height : UInt32) (image : GrayImage) : GrayImage :=
  let down := Taps.all image.height height
  let across := Taps.all image.width width
  let none : Taps := ⟨0, []⟩
  let tall := Grid.ofFn image.width height fun x y _ =>
    (down.getD y.toNat none).apply fun i => (image.getD x (.ofNat i) 0).toFloat32
  Grid.ofFn width height fun x y _ =>
    let value := (across.getD x.toNat none).apply fun i => tall.getD (.ofNat i) y 0
    roundToByte (if value < 0 then 0 else if 255 < value then 255 else value)

-- Scales both sides by the factor. A picture whose size stays the same is not touched.
def scale (factor : Float32) (image : GrayImage) : Except ScaleError GrayImage :=
  if !(factor.isFinite ∧ 0 < factor) then
    .error (.factor factor)
  else if image.width = 0 ∨ image.height = 0 then
    .error .emptyImage
  else do
    let width ← scaledSize image.width factor
    let height ← scaledSize image.height factor
    if width = image.width ∧ height = image.height then
      return image
    else
      return image.resize width height

end GrayImage

end PagePrep
