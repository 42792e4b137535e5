import PagePrep.Options.Basic

namespace PagePrep

structure RuntimeOptions where
  -- Without a number, as many threads as there are processors.
  threads : Option UInt64 := none
deriving DecidableEq, Repr

-- What a configuration file sets.
structure Config where
  polarity : PolarityOptions  := {}
  scale    : ScaleOptions     := {}
  unsharp  : UnsharpOptions   := {}
  binarize : BinarizeOptions  := {}
  furigana : FuriganaSettings := {}
  runtime  : RuntimeOptions   := {}
deriving DecidableEq, Repr

def Config.toOptions (c : Config) : PageOptions :=
  ⟨c.polarity, c.scale, c.unsharp, c.binarize, c.furigana, c.runtime.threads⟩

-- Whether every setting that should be a number is one.
def Config.isNaNFree (c : Config) : Bool :=
  let singles := [c.polarity.darkBgThreshold, c.scale.factor, c.unsharp.fract,
    c.binarize.scoreFraction, c.furigana.minInk, c.furigana.minWidth]
  !singles.any Float32.isNaN && !c.furigana.keepRatio.isNaN &&
    !c.furigana.magnification.any Float32.isNaN

-- What the command line sets. What it does not set stays as it is.
structure Overrides where
  negate                : Option NegateMode   := none
  darkBgThreshold       : Option Float32      := none
  scale                 : Option Bool         := none
  scaleFactor           : Option Float32      := none
  unsharp               : Option Bool         := none
  unsharpHalfwidth      : Option UInt32       := none
  unsharpFract          : Option Float32      := none
  binarize              : Option Bool         := none
  tileWidth             : Option UInt32       := none
  tileHeight            : Option UInt32       := none
  smoothX               : Option UInt32       := none
  smoothY               : Option UInt32       := none
  scoreFraction         : Option Float32      := none
  furigana              : Option FuriganaMode := none
  furiganaMagnification : Option Float32      := none
  threads               : Option UInt64       := none
deriving DecidableEq, Repr

def Overrides.applyTo (o : Overrides) (p : PageOptions) : PageOptions where
  polarity := {
    mode            := o.negate.getD p.polarity.mode
    darkBgThreshold := o.darkBgThreshold.getD p.polarity.darkBgThreshold
  }
  scale := {
    enabled := o.scale.getD p.scale.enabled
    factor  := o.scaleFactor.getD p.scale.factor
  }
  unsharp := {
    enabled   := o.unsharp.getD p.unsharp.enabled
    halfwidth := o.unsharpHalfwidth.getD p.unsharp.halfwidth
    fract     := o.unsharpFract.getD p.unsharp.fract
  }
  binarize := {
    enabled       := o.binarize.getD p.binarize.enabled
    tileWidth     := o.tileWidth.getD p.binarize.tileWidth
    tileHeight    := o.tileHeight.getD p.binarize.tileHeight
    smoothX       := o.smoothX.getD p.binarize.smoothX
    smoothY       := o.smoothY.getD p.binarize.smoothY
    scoreFraction := o.scoreFraction.getD p.binarize.scoreFraction
  }
  furigana := { p.furigana with
    mode          := o.furigana.getD p.furigana.mode
    magnification := o.furiganaMagnification.or p.furigana.magnification
  }
  threads := o.threads.or p.threads

-- An option whose value can not be used.
inductive InvalidOption where
  | darkBgThreshold (x : Float32)
  | scaleFactor (x : Float32)
  | scoreFraction (x : Float32)
  | furiganaMagnification (x : Float32)
  | threads
  -- A mode that no number stands for.
  | mode (reason : String)
deriving DecidableEq, Repr

namespace InvalidOption

def field : InvalidOption → String
  | darkBgThreshold _       => "dark_bg_threshold"
  | scaleFactor _           => "scale_factor"
  | scoreFraction _         => "score_fraction"
  | furiganaMagnification _ => "furigana_magnification"
  | threads                 => "threads"
  | mode _                  => "mode"

def reason : InvalidOption → String
  | darkBgThreshold x | scoreFraction x =>
    NumberStyle.message.single x ++ " is outside [0, 1]"
  | scaleFactor x | furiganaMagnification x =>
    NumberStyle.message.single x ++ " is not a positive number"
  | threads     => "must be at least 1"
  | mode reason => reason

end InvalidOption

inductive ConfigError where
  | notFound (path : String)
  | read (path reason : String)
  | parse (path reason : String)
  | invalidValue (option : InvalidOption)
deriving DecidableEq, Repr

namespace ConfigError

def message : ConfigError → String
  | notFound path       => "Config file not found: " ++ path
  | read path reason    => "Failed to read config file " ++ path ++ ": " ++ reason
  | parse path reason   => "Failed to parse config file " ++ path ++ ": " ++ reason
  | invalidValue option => "Invalid value for " ++ option.field ++ ": " ++ option.reason

-- The error that caused it.
def source? : ConfigError → Option String
  | read _ reason | parse _ reason => some reason
  | notFound _ | invalidValue _    => none

end ConfigError

def isShare (x : Float32) : Bool :=
  0 ≤ x && x ≤ 1

def isPositive (x : Float32) : Bool :=
  x.isFinite && 0 < x

namespace PageOptions

-- The first option, in this order, whose value can not be used. The scale factor may be anything
-- while the page is not scaled, and the magnification while furigana are kept.
def invalid? (o : PageOptions) : Option InvalidOption :=
  if !isShare o.polarity.darkBgThreshold then
    some (.darkBgThreshold o.polarity.darkBgThreshold)
  else if o.scale.enabled ∧ !isPositive o.scale.factor then
    some (.scaleFactor o.scale.factor)
  else if !isShare o.binarize.scoreFraction then
    some (.scoreFraction o.binarize.scoreFraction)
  else if o.furigana.mode ≠ .disabled ∧ !isPositive o.magnification then
    some (.furiganaMagnification o.magnification)
  else if o.threads = some 0 then
    some .threads
  else
    none

def validate (o : PageOptions) : Except ConfigError PageOptions :=
  match o.invalid? with
  | some option => .error (.invalidValue option)
  | none        => .ok o

end PageOptions

-- The options of the file, but for those that are given on the command line.
def Config.merge (c : Config) (o : Overrides) : Except ConfigError PageOptions :=
  (o.applyTo c.toOptions).validate

end PagePrep
