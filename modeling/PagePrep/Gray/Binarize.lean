import PagePrep.Gray.BoxFilter
import PagePrep.Gray.Otsu
import PagePrep.Gray.Tile
import PagePrep.Options.Basic
import PagePrep.Raster.Page

namespace PagePrep

inductive BinarizeError where
  | emptyImage
  | tileSize (width height : UInt32)
  | scoreFraction (fraction : Float32)
deriving DecidableEq, Repr

def minTileSize : UInt32 := 16

def BinarizeError.reason : BinarizeError → String
  | emptyImage            => "image has zero dimensions"
  | tileSize width height =>
    s!"tile size {width}x{height} is below the minimum of {minTileSize}"
  | scoreFraction x       =>
    "score fraction " ++ NumberStyle.message.single x ++ " is outside [0, 1]"

namespace GrayImage

def tileGrid (image : GrayImage) (o : BinarizeOptions) : TileGrid :=
  .layout image.width image.height o.tileWidth o.tileHeight

-- The threshold of each tile by itself.
def tileThresholds (image : GrayImage) (grid : TileGrid) (scoreFraction : Float32) : GrayImage :=
  Grid.ofFn grid.nx grid.ny fun tx ty _ =>
    tileThreshold (image.crop (grid.bounds tx ty)).cells scoreFraction

-- The thresholds of the tiles, smoothed over as many neighbours as the grid has room for.
def thresholdMap (image : GrayImage) (o : BinarizeOptions) : Except BinarizeError GrayImage :=
  if image.width = 0 ∨ image.height = 0 then
    .error .emptyImage
  else if o.tileWidth < minTileSize ∨ o.tileHeight < minTileSize then
    .error (.tileSize o.tileWidth o.tileHeight)
  else if !(0 ≤ o.scoreFraction ∧ o.scoreFraction ≤ 1) then
    .error (.scoreFraction o.scoreFraction)
  else
    let grid := image.tileGrid o
    let thresholds := image.tileThresholds grid o.scoreFraction
    let smoothX := min o.smoothX ((grid.nx - 1) / 2)
    let smoothY := min o.smoothY ((grid.ny - 1) / 2)
    if smoothX = 0 ∧ smoothY = 0 then
      .ok thresholds
    else
      .ok (thresholds.boxFilter smoothX smoothY)

-- A pixel is ink if it is no lighter than the threshold of its tile.
def binarize (image : GrayImage) (o : BinarizeOptions) : Except BinarizeError Page := do
  let thresholds ← image.thresholdMap o
  let grid := image.tileGrid o
  return Grid.ofFn image.width image.height fun x y h =>
    let (tx, ty) := grid.tileOf x y
    image.get x y h ≤ thresholds.getD tx ty 0

end GrayImage

end PagePrep
