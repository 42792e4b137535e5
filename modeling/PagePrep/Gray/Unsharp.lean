import PagePrep.Gray.BoxFilter
import PagePrep.Number.Text

namespace PagePrep

-- The fraction of an unsharp mask is not finite.
structure UnsharpError where
  fract : Float32
deriving DecidableEq, Repr

def UnsharpError.reason (e : UnsharpError) : String :=
  "fraction must be finite (got " ++ NumberStyle.message.single e.fract ++ ")"

namespace GrayImage

-- A sample moved away from the mean of its surroundings.
def sharpen (fract : Float32) (sample blurred : UInt8) : UInt8 :=
  let s := sample.toFloat32
  (s + fract * (s - blurred.toFloat32) + 0.5).toUInt8

-- Sharpens the picture by its difference from the mean of each square of `2 * halfwidth + 1`.
def unsharpMask (halfwidth : UInt32) (fract : Float32) (image : GrayImage) :
    Except UnsharpError GrayImage :=
  if !fract.isFinite then
    .error ⟨fract⟩
  else if halfwidth = 0 ∨ fract ≤ 0 then
    .ok image
  else
    let blurred := image.boxFilter halfwidth halfwidth
    .ok (Grid.ofFn image.width image.height fun x y h =>
      sharpen fract (image.get x y h) (blurred.getD x y 0))

end GrayImage

end PagePrep
