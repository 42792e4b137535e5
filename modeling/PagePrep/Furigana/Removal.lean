import PagePrep.Furigana.Detection
import PagePrep.Furigana.Plan

namespace PagePrep

structure RemovalReport where
  spansFound   : Nat       := 0
  spansKept    : Nat       := 0
  averageWidth : UInt32    := 0
  bands        : List Band := []
  truncated    : Bool      := false
deriving DecidableEq, Repr

def RemovalReport.erasedLines (r : RemovalReport) : Nat :=
  r.bands.foldr (fun band lines => band.extent.toNat + lines) 0

variable {R : Type} [BinaryRaster R]

def eraseBand (axis : ScanAxis) (band : Band) (raster : R) : Except RemovalError Unit × R :=
  let rect := axis.bandRect band (BinaryRaster.width raster) (BinaryRaster.height raster)
  match BinaryRaster.clearRect raster rect with
  | (.ok _, raster)         => (.ok (), raster)
  | (.error source, raster) => (.error (.eraseRectangle band.offset band.extent source), raster)

-- The bands are erased in order up to the first that can not be.
def eraseBands (axis : ScanAxis) : List Band → R → Except RemovalError Unit × R
  | [],           raster => (.ok (), raster)
  | band :: rest, raster =>
    match eraseBand axis band raster with
    | (.ok _, raster)    => eraseBands axis rest raster
    | (.error e, raster) => (.error e, raster)

-- Erases everything but the main text. The spans about as wide as the average are main text;
-- furigana makes narrower ones. After an error the raster may be erased in part.
def removeFurigana (o : RemovalOptions) (orientation : Orientation) (raster : R) :
    Except (Failure RemovalError) RemovalReport × R :=
  let axis := orientation.scanAxis
  match o.thresholds with
  | .error e => (.error (.raised e), raster)
  | .ok thresholds =>
  match detectSpans raster axis thresholds o.maxSpans.toNat with
  | .error e => (.error e, raster)
  | .ok detection =>
  match detection.averageWidth? with
  | none => (.ok {}, raster)
  | some averageWidth =>
    let spans := detection.spans
    let lineCount := axis.lineCount (BinaryRaster.width raster) (BinaryRaster.height raster)
    let plan := planErasure spans.spans averageWidth lineCount o.keepRatio
    match eraseBands axis plan.bands raster with
    | (.error e, raster) => (.error (.raised e), raster)
    | (.ok _, raster)    =>
      (.ok ⟨spans.length, plan.kept, averageWidth, plan.bands, detection.truncated⟩, raster)

end PagePrep
