import PagePrep.Furigana.Axis
import PagePrep.Furigana.Span

namespace PagePrep

structure ErasurePlan where
  bands : List Band
  -- The number of spans that are main text.
  kept  : Nat
deriving DecidableEq, Repr

namespace ErasurePlan

-- The width from which on a span is main text.
def minWidth (averageWidth : UInt32) (keepRatio : Float) : UInt32 :=
  (averageWidth.toFloat * keepRatio).toUInt32

def mainText (spans : List Span) (averageWidth : UInt32) (keepRatio : Float) : List Span :=
  spans.filter fun s => minWidth averageWidth keepRatio ≤ s.width

-- The lines from `cursor` on that are outside of all spans. Behind the last span the final line
-- alone is no band, and without a span there is no band at all.
def gaps (lineCount cursor : UInt32) : List Span → List Band
  | []        =>
    if cursor ≠ 0 ∧ cursor.toNat + 1 < lineCount.toNat then
      [⟨cursor, lineCount - cursor⟩]
    else
      []
  | s :: rest =>
    let behind := gaps lineCount (s.stop + 1) rest
    if cursor < s.start then ⟨cursor, s.start - cursor⟩ :: behind else behind

end ErasurePlan

-- All but the main text is erased.
def planErasure (spans : List Span) (averageWidth lineCount : UInt32) (keepRatio : Float) :
    ErasurePlan :=
  let kept := ErasurePlan.mainText spans averageWidth keepRatio
  ⟨ErasurePlan.gaps lineCount 0 kept, kept.length⟩

end PagePrep
