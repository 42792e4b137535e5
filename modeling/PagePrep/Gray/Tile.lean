import PagePrep.Raster.Basic

namespace PagePrep

-- Tiles over a picture, in columns and rows. All are of one size but those of the last column and
-- of the last row, which also take what is left over.
structure TileGrid where
  nx         : UInt32
  ny         : UInt32
  tileWidth  : UInt32
  tileHeight : UInt32
  width      : UInt32
  height     : UInt32
deriving DecidableEq, Repr

namespace TileGrid

-- As many tiles as there are of the wanted size, and at least one.
def tileCount (size tile : UInt32) : UInt32 :=
  max (size / max tile 1) 1

def layout (width height tileWidth tileHeight : UInt32) : TileGrid :=
  let nx := tileCount width tileWidth
  let ny := tileCount height tileHeight
  ⟨nx, ny, width / nx, height / ny, width, height⟩

-- The pixels of the tile in column `tx` and row `ty`.
def bounds (g : TileGrid) (tx ty : UInt32) : Rect :=
  let x := tx * g.tileWidth
  let y := ty * g.tileHeight
  let width := if tx = g.nx - 1 then g.width - x else g.tileWidth
  let height := if ty = g.ny - 1 then g.height - y else g.tileHeight
  ⟨x, y, width, height⟩

-- The tile that a pixel belongs to.
def tileOf (g : TileGrid) (x y : UInt32) : UInt32 × UInt32 :=
  (min (x / max g.tileWidth 1) (g.nx - 1), min (y / max g.tileHeight 1) (g.ny - 1))

end TileGrid

end PagePrep
