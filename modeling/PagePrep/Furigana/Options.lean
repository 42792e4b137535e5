import PagePrep.Number.Text
import PagePrep.Raster.Basic

namespace PagePrep

inductive RemovalError where
  | pixelAccess (x y : UInt32) (source : RasterError)
  | eraseRectangle (offset extent : UInt32) (source : RasterError)
  | invalidMagnification (magnification : Float32)
deriving DecidableEq, Repr

namespace RemovalError

def message : RemovalError → String
  | pixelAccess x y source => s!"Failed to read pixel ({x}, {y}): " ++ source.message
  | eraseRectangle offset extent source =>
    s!"Failed to erase {extent} line(s) at offset {offset}: " ++ source.message
  | invalidMagnification magnification =>
    "Invalid magnification factor: " ++ NumberStyle.message.single magnification

-- The error of the raster that caused it.
def source? : RemovalError → Option RasterError
  | pixelAccess _ _ source | eraseRectangle _ _ source => some source
  | invalidMagnification _ => none

end RemovalError

-- When a line has enough ink to be part of a span, and a span enough lines to be kept.
structure SpanThresholds where
  minInk   : UInt32
  minWidth : UInt32
deriving DecidableEq, Repr

def clampUnit (x : Float) : Float :=
  if x < 0 then 0 else if 1 < x then 1 else x

-- What is not above zero becomes zero without a minus, also what is not a number.
def atLeastZero (x : Float32) : Float32 :=
  if 0 < x then x else 0

structure RemovalOptions where
  -- How much larger the page is than the scan that the thresholds were chosen for.
  magnification : Float32 := 1
  minInk        : Float32 := 2
  minWidth      : Float32 := 5
  maxSpans      : UInt64  := 50
  -- The share of the average width from which on a span is main text.
  keepRatio     : Float   := 0.9
deriving DecidableEq, Repr

namespace RemovalOptions

def withMagnification (o : RemovalOptions) (x : Float32) : RemovalOptions :=
  { o with magnification := x }

def withMinInk (o : RemovalOptions) (x : Float32) : RemovalOptions :=
  { o with minInk := atLeastZero x }

def withMinWidth (o : RemovalOptions) (x : Float32) : RemovalOptions :=
  { o with minWidth := atLeastZero x }

def withMaxSpans (o : RemovalOptions) (n : UInt64) : RemovalOptions :=
  { o with maxSpans := max n 1 }

def withKeepRatio (o : RemovalOptions) (x : Float) : RemovalOptions :=
  { o with keepRatio := clampUnit x }

-- The thresholds for the magnified page, in whole pixels.
def thresholds (o : RemovalOptions) : Except RemovalError SpanThresholds :=
  if o.magnification.isFinite ∧ 0 < o.magnification then
    .ok ⟨(o.minInk * o.magnification).toUInt32, (o.minWidth * o.magnification).toUInt32⟩
  else
    .error (.invalidMagnification o.magnification)

end RemovalOptions

end PagePrep
