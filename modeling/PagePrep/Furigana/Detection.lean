import PagePrep.Furigana.Axis
import PagePrep.Furigana.Options
import PagePrep.Furigana.Span

namespace PagePrep

-- The spans of a page along one axis.
structure Detection where
  spans     : SpanList
  -- The good lines of all spans together.
  goodLines : UInt64
  -- The list was full before the last line was looked at.
  truncated : Bool
deriving DecidableEq, Repr

namespace Detection

def averageWidth? (d : Detection) : Option UInt32 :=
  if d.spans.isEmpty then none else some (d.goodLines / .ofNat d.spans.length).toUInt32

-- The state between two lines: the first line of the open run, its good lines, and what was found.
structure Scan where
  start     : Option UInt32
  run       : UInt32
  spans     : SpanList
  goodLines : UInt64
deriving DecidableEq, Repr

inductive Progress where
  | next (s : Scan)
  -- The list of spans is full.
  | stop (s : Scan)

namespace Scan

def init (spans : SpanList) : Scan :=
  ⟨none, 0, spans, 0⟩

def extend (s : Scan) (line : UInt32) : Scan :=
  { s with start := s.start.getD line, run := s.run + 1 }

-- The run ends at `line`, with `run` good lines.
def close (minWidth run line : UInt32) (s : Scan) : Progress :=
  match s.start with
  | none       => .next { s with run := 0 }
  | some start =>
    if run < minWidth then
      .next { s with start := none, run := 0 }
    else
      let spans := s.spans.push ⟨start, line⟩
      let found := ⟨none, 0, spans, s.goodLines + run.toUInt64⟩
      if spans.isFull then .stop found else .next found

-- The last line closes the open run even if it is good. It then counts as one of the good lines.
def step (minWidth line : UInt32) (good last : Bool) (s : Scan) : Progress :=
  match good, last with
  | true, false => .next (s.extend line)
  | true, true  => s.close minWidth (s.run + 1) line
  | false, _    => s.close minWidth s.run line

end Scan

variable {R : Type} [BinaryRaster R]

def readInk (raster : R) (p : UInt32 × UInt32) : Except RemovalError Bool :=
  match BinaryRaster.pixel raster p.1 p.2 with
  | .ok ink       => .ok ink
  | .error source => .error (.pixelAccess p.1 p.2 source)

-- Whether the rest of a line, `count` pixels of ink behind its start, has enough ink. The reading
-- stops as soon as it has.
def isGoodLine (raster : R) (axis : ScanAxis) (line minInk : UInt32) :
    (rest : Nat) → (pos count : UInt32) → Except RemovalError Bool
  | 0,        _,   _     => .ok false
  | rest + 1, pos, count => do
    if ← readInk raster (axis.point line pos) then
      if minInk ≤ count + 1 then
        return true
      else
        isGoodLine raster axis line minInk rest (pos + 1) (count + 1)
    else
      isGoodLine raster axis line minInk rest (pos + 1) count

def scanFrom (raster : R) (axis : ScanAxis) (thresholds : SpanThresholds) (length : UInt32) :
    (rest : Nat) → (line : UInt32) → Scan → Except RemovalError Detection
  | 0,        _,    s => .ok ⟨s.spans, s.goodLines, false⟩
  | rest + 1, line, s => do
    let good ← isGoodLine raster axis line thresholds.minInk length.toNat 0 0
    match s.step thresholds.minWidth line good (rest == 0) with
    | .next s => scanFrom raster axis thresholds length rest (line + 1) s
    | .stop s => return ⟨s.spans, s.goodLines, rest != 0⟩

-- The lines are looked at one by one, until the page or the room for spans is at its end.
def scan (raster : R) (axis : ScanAxis) (thresholds : SpanThresholds) (spans : SpanList) :
    Except RemovalError Detection :=
  let width := BinaryRaster.width raster
  let height := BinaryRaster.height raster
  scanFrom raster axis thresholds (axis.lineLength width height)
    (axis.lineCount width height).toNat 0 (.init spans)

end Detection

-- The room for the spans is reserved first. Where that fails, no line is looked at.
def detectSpans {R : Type} [BinaryRaster R] (raster : R) (axis : ScanAxis)
    (thresholds : SpanThresholds) (capacity : Nat) : Except (Failure RemovalError) Detection := do
  let spans ← (SpanList.withCapacity capacity).mapError .panicked
  (Detection.scan raster axis thresholds spans).mapError .raised

end PagePrep
