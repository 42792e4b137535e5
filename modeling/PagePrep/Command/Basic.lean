import PagePrep.Options.Config

namespace PagePrep

def programName : String := "ocr-preprocess"

def programVersion : String := "0.1.0"

-- The arguments of `process`. What is not given is left to the configuration.
structure ProcessArguments where
  input                 : String              := ""
  output                : String              := ""
  config                : Option String       := none
  negate                : Option NegateMode   := none
  darkBgThreshold       : Option Float32      := none
  scale                 : Option Float32      := none
  noScale               : Bool                := false
  unsharpHalfwidth      : Option UInt32       := none
  unsharpFract          : Option Float32      := none
  noUnsharp             : Bool                := false
  noBinarize            : Bool                := false
  tileWidth             : Option UInt32       := none
  tileHeight            : Option UInt32       := none
  smoothX               : Option UInt32       := none
  smoothY               : Option UInt32       := none
  scoreFraction         : Option Float32      := none
  furigana              : Option FuriganaMode := none
  furiganaMagnification : Option Float32      := none
  threads               : Option UInt64       := none
  -- Only tell what would be done.
  dryRun                : Bool                := false
deriving DecidableEq, Repr

namespace ProcessArguments

-- What a flag that turns something off says about it.
def turnedOff (off : Bool) : Option Bool :=
  if off then some false else none

def toOverrides (a : ProcessArguments) : Overrides where
  negate                := a.negate
  darkBgThreshold       := a.darkBgThreshold
  scale                 := (turnedOff a.noScale).or (a.scale.map fun _ => true)
  scaleFactor           := a.scale
  unsharp               := turnedOff a.noUnsharp
  unsharpHalfwidth      := a.unsharpHalfwidth
  unsharpFract          := a.unsharpFract
  binarize              := turnedOff a.noBinarize
  tileWidth             := a.tileWidth
  tileHeight            := a.tileHeight
  smoothX               := a.smoothX
  smoothY               := a.smoothY
  scoreFraction         := a.scoreFraction
  furigana              := a.furigana
  furiganaMagnification := a.furiganaMagnification
  threads               := a.threads

end ProcessArguments

-- The arguments of `legacy`, all of which are given by their positions. Modes are numbers, and so
-- are switches, which any number but zero turns on.
structure LegacyArguments where
  input            : String  := ""
  output           : String  := ""
  negate           : UInt8   := 0
  darkBgThreshold  : Float32 := 0
  scale            : UInt32  := 0
  scaleFactor      : Float32 := 0
  unsharp          : UInt32  := 0
  unsharpHalfwidth : UInt32  := 0
  unsharpFract     : Float32 := 0
  binarize         : UInt32  := 0
  tileWidth        : UInt32  := 0
  tileHeight       : UInt32  := 0
  smoothX          : UInt32  := 0
  smoothY          : UInt32  := 0
  scoreFraction    : Float32 := 0
  furigana         : UInt8   := 0
deriving DecidableEq, Repr

-- The scale factor always magnifies the thresholds for furigana, even of a page that is not scaled.
def LegacyArguments.toOverrides (a : LegacyArguments) : Except ConfigError Overrides := do
  let negate ← (NegateMode.ofCode a.negate.toNat).mapError fun e => .invalidValue (.mode e)
  let furigana ← (FuriganaMode.ofCode a.furigana.toNat).mapError fun e => .invalidValue (.mode e)
  return {
    negate                := some negate
    darkBgThreshold       := some a.darkBgThreshold
    scale                 := some (a.scale ≠ 0)
    scaleFactor           := some a.scaleFactor
    unsharp               := some (a.unsharp ≠ 0)
    unsharpHalfwidth      := some a.unsharpHalfwidth
    unsharpFract          := some a.unsharpFract
    binarize              := some (a.binarize ≠ 0)
    tileWidth             := some a.tileWidth
    tileHeight            := some a.tileHeight
    smoothX               := some a.smoothX
    smoothY               := some a.smoothY
    scoreFraction         := some a.scoreFraction
    furigana              := some furigana
    furiganaMagnification := some a.scaleFactor
  }

inductive Command where
  | process (arguments : ProcessArguments)
  | legacy (arguments : LegacyArguments)
  -- Show version, defaults and where configurations are looked for.
  | info
deriving DecidableEq, Repr

end PagePrep
