import PagePrep.Netpbm.Decode
import PagePrep.Raster.Page

namespace PagePrep.Netpbm

-- Eight bits in a byte, the first in the highest place.
def packByte (bit : Nat → Bool) : UInt8 :=
  .ofNat ((List.range 8).foldl (fun n k => 2 * n + (bit k).toNat) 0)

-- A sample of 0 is black and sets its bit. The bits past the end of a row are not set.
def packRow (samples : Grid UInt8) (y : Nat) : Bytes :=
  (List.range (rowBytes samples.width.toNat)).map fun i =>
    packByte fun k => samples.getD (.ofNat (8 * i + k)) (.ofNat y) 1 == 0

-- A picture that has samples of 0 and 1 only as a bitmap.
def encodeBitmap (samples : Grid UInt8) : Bytes :=
  .ofAscii s!"P4\n{samples.width} {samples.height}\n" ++
    (List.range samples.height.toNat).flatMap (packRow samples)

-- The samples of a binary page: 0 for ink and 1 for paper.
def bitmapSamples (page : Page) : Grid UInt8 :=
  page.map fun ink => (!ink).toUInt8

-- A binary page as a bitmap.
def encodePage (page : Page) : Bytes :=
  encodeBitmap (bitmapSamples page)

-- A picture in shades of gray as a graymap.
def encodeGray (image : GrayImage) : Bytes :=
  .ofAscii s!"P5\n{image.width} {image.height} 255\n" ++ image.cells.toList

end PagePrep.Netpbm
