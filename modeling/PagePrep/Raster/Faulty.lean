import PagePrep.Raster.Basic

namespace PagePrep

-- A raster with defects: some of its pixels can not be read, and after a number of calls of
-- `clearRect` that got through it takes no more. Its size is that of the raster inside.
structure Faulty (R : Type) where
  raster     : R
  unreadable : UInt32 → UInt32 → Bool
  -- The size that the complaint about an unreadable pixel names.
  readable   : UInt32 × UInt32
  -- `none` is without limit.
  clearsLeft : Option Nat

namespace Faulty

variable {R : Type} [BinaryRaster R]

def pixel (f : Faulty R) (x y : UInt32) : Except RasterError Bool :=
  if f.unreadable x y then
    .error (.outOfBounds x y f.readable.1 f.readable.2)
  else
    BinaryRaster.pixel f.raster x y

def clearRect (f : Faulty R) (rect : Rect) : Except RasterError Unit × Faulty R :=
  match f.clearsLeft with
  | some 0 => (.error (.invalidRect rect 0 0), f)
  | left   =>
    let (result, raster) := BinaryRaster.clearRect f.raster rect
    (result, { f with raster, clearsLeft := left.map (· - 1) })

instance : BinaryRaster (Faulty R) where
  width f   := BinaryRaster.width f.raster
  height f  := BinaryRaster.height f.raster
  pixel     := Faulty.pixel
  clearRect := Faulty.clearRect

end Faulty

end PagePrep
