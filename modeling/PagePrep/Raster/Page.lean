import PagePrep.Grid
import PagePrep.Raster.Basic

namespace PagePrep

-- A binary page: ink is `true`, paper is `false`.
abbrev Page := Grid Bool

namespace Page

def blank (width height : UInt32) : Page :=
  Grid.replicate width height false

-- Any byte but zero is ink.
def ofBytes (width height : UInt32) (bytes : Array UInt8) : Except RasterError Page :=
  match Grid.ofCells? width height (bytes.map (· != 0)) with
  | some page => .ok page
  | none      => .error (.bufferSize width height bytes.size)

def outside (page : Page) (x y : UInt32) : RasterError :=
  .outOfBounds x y page.width page.height

def pixel (page : Page) (x y : UInt32) : Except RasterError Bool :=
  match page.get? x y with
  | some ink => .ok ink
  | none     => .error (page.outside x y)

def setPixel (page : Page) (x y : UInt32) (ink : Bool) : Except RasterError Page :=
  if h : page.Contains x y then .ok (page.set x y ink h) else .error (page.outside x y)

-- A rectangle that fits is filled with paper row by row.
def cleared (page : Page) (rect : Rect) : Page where
  width  := page.width
  height := page.height
  cells  := rect.height.toNat.fold (fun i _ =>
    fillCells false ((rect.y.toNat + i) * page.width.toNat + rect.x.toNat) rect.width.toNat)
    page.cells
  size_cells := size_fold page.size_cells fun _ _ _ => size_fillCells.trans

-- A rectangle that does not fit leaves the page as it is.
def clearRect (page : Page) (rect : Rect) : Except RasterError Unit × Page :=
  if rect.fitsWithin page.width page.height then
    (.ok (), page.cleared rect)
  else
    (.error (.invalidRect rect page.width page.height), page)

instance : BinaryRaster Page where
  width     := Grid.width
  height    := Grid.height
  pixel     := Page.pixel
  clearRect := Page.clearRect

def inkCount (page : Page) : Nat :=
  page.cells.countP (· == true)

-- The coordinates from `a` to `b`, in either order, both ends cut down to the last of `n`.
def range (n a b : UInt32) : List UInt32 :=
  let lo := min (min a b) (n - 1)
  let hi := min (max a b) (n - 1)
  (List.range (hi.toNat - lo.toNat + 1)).map fun i => lo + .ofNat i

-- The pixels from `(x₁, y₁)` to `(x₂, y₂)`, both ends included. Only a horizontal or a vertical
-- line has pixels, and only on a page that has some.
def line? (page : Page) (x₁ y₁ x₂ y₂ : UInt32) : Option (List (UInt32 × UInt32)) :=
  if page.width = 0 ∨ page.height = 0 ∨ (x₁ ≠ x₂ ∧ y₁ ≠ y₂) then
    none
  else
    let xs := range page.width x₁ x₂
    let ys := range page.height y₁ y₂
    some (ys.flatMap fun y => xs.map fun x => (x, y))

def inkFractionOnLine? (page : Page) (x₁ y₁ x₂ y₂ : UInt32) : Option Float32 :=
  (page.line? x₁ y₁ x₂ y₂).map fun points =>
    let hits := points.countP fun (x, y) => page.getD x y false
    (UInt64.ofNat hits).toFloat32 / (UInt64.ofNat points.length).toFloat32

-- The mean of the ink fractions of the first row, the last row, the first column and the last
-- column: 0 is a white border and 1 a black one.
def borderDarkness? (page : Page) : Option Float32 := do
  guard (page.width ≠ 0 ∧ page.height ≠ 0)
  let right := page.width - 1
  let bottom := page.height - 1
  let topRow ← page.inkFractionOnLine? 0 0 right 0
  let bottomRow ← page.inkFractionOnLine? 0 bottom right bottom
  let leftColumn ← page.inkFractionOnLine? 0 0 0 bottom
  let rightColumn ← page.inkFractionOnLine? right 0 right bottom
  return (topRow + bottomRow + leftColumn + rightColumn) / 4

-- Ink is black and paper is white.
def toGray (page : Page) : Grid UInt8 :=
  page.map fun ink => if ink then 0 else 255

end Page

end PagePrep
