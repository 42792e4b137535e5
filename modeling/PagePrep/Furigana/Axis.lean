import PagePrep.Raster.Basic

namespace PagePrep

-- The writing direction of a page.
inductive Orientation where
  | vertical
  | horizontal
deriving DecidableEq, Repr

def Orientation.text : Orientation → String
  | vertical   => "Vertical"
  | horizontal => "Horizontal"

-- A run of consecutive lines.
structure Band where
  offset : UInt32
  extent : UInt32
deriving DecidableEq, Repr

-- What counts as a line of the page. The two axes differ by an exchange of the coordinates only.
inductive ScanAxis where
  | columns
  | rows
deriving DecidableEq, Repr

-- The columns of vertical text are the columns of the page.
def Orientation.scanAxis : Orientation → ScanAxis
  | vertical   => .columns
  | horizontal => .rows

namespace ScanAxis

def lineCount (axis : ScanAxis) (width height : UInt32) : UInt32 :=
  match axis with
  | columns => width
  | rows    => height

def lineLength (axis : ScanAxis) (width height : UInt32) : UInt32 :=
  match axis with
  | columns => height
  | rows    => width

-- The pixel at a position of a line.
def point (axis : ScanAxis) (line pos : UInt32) : UInt32 × UInt32 :=
  match axis with
  | columns => (line, pos)
  | rows    => (pos, line)

-- A band covers its lines in full length.
def bandRect (axis : ScanAxis) (band : Band) (width height : UInt32) : Rect :=
  match axis with
  | columns => ⟨band.offset, 0, band.extent, height⟩
  | rows    => ⟨0, band.offset, width, band.extent⟩

end ScanAxis

end PagePrep
