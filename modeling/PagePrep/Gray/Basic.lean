import PagePrep.Grid
import PagePrep.Raster.Basic

namespace PagePrep

-- A picture in shades of gray, from 0 for black to 255 for white.
abbrev GrayImage := Grid UInt8

namespace GrayImage

def invert (image : GrayImage) : GrayImage :=
  image.map (255 - ·)

-- A part of the picture. What would lie outside of it is black.
def crop (image : GrayImage) (part : Rect) : GrayImage :=
  Grid.ofFn part.width part.height fun dx dy _ => image.getD (part.x + dx) (part.y + dy) 0

def row (image : GrayImage) (y : Nat) : Array UInt8 :=
  image.cells.extract (y * image.width.toNat) ((y + 1) * image.width.toNat)

end GrayImage

-- A number that is at least zero, rounded to the nearest whole one, a half upwards.
def roundToNat (x : Float32) : Nat :=
  let whole := x.toUInt64
  if 0.5 ≤ x - whole.toFloat32 then whole.toNat + 1 else whole.toNat

def roundToByte (x : Float32) : UInt8 :=
  .ofNat (min (roundToNat x) 255)

end PagePrep
