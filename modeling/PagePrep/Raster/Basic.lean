namespace PagePrep

-- An axis-parallel rectangle of pixels, given by its top left corner and its size.
structure Rect where
  x      : UInt32
  y      : UInt32
  width  : UInt32
  height : UInt32
deriving DecidableEq, Repr

namespace Rect

-- The first column past the rectangle. It may lie past the last coordinate there is, so it is a
-- natural number.
def right (r : Rect) : Nat :=
  r.x.toNat + r.width.toNat

def bottom (r : Rect) : Nat :=
  r.y.toNat + r.height.toNat

def isEmpty (r : Rect) : Bool :=
  r.width == 0 || r.height == 0

-- An empty rectangle fits nowhere.
def fitsWithin (r : Rect) (width height : UInt32) : Bool :=
  !r.isEmpty && r.right ≤ width.toNat && r.bottom ≤ height.toNat

def Covers (r : Rect) (x y : UInt32) : Prop :=
  (r.x ≤ x ∧ x.toNat < r.right) ∧ (r.y ≤ y ∧ y.toNat < r.bottom)

instance (r : Rect) (x y : UInt32) : Decidable (r.Covers x y) :=
  inferInstanceAs (Decidable (_ ∧ _))

def text (r : Rect) : String :=
  s!"Rect \x7b x: {r.x}, y: {r.y}, width: {r.width}, height: {r.height} \x7d"

end Rect

inductive RasterError where
  | outOfBounds (x y width height : UInt32)
  | invalidRect (rect : Rect) (width height : UInt32)
  | bufferSize (width height : UInt32) (actual : Nat)
deriving DecidableEq, Repr

def RasterError.message : RasterError → String
  | outOfBounds x y width height => s!"Pixel ({x}, {y}) is outside the {width}x{height} raster"
  | invalidRect rect width height => s!"Invalid rectangle {rect.text} for {width}x{height} raster"
  | bufferSize width height actual => s!"Buffer length {actual} does not match {width}x{height}"

-- What the removal of furigana needs of a page. A pixel is `true` for ink and `false` for paper.
-- `clearRect` makes every pixel of the rectangle paper; it returns the raster also when it fails,
-- as a raster may count its calls.
class BinaryRaster (R : Type) where
  width     : R → UInt32
  height    : R → UInt32
  pixel     : R → UInt32 → UInt32 → Except RasterError Bool
  clearRect : R → Rect → Except RasterError Unit × R

end PagePrep
