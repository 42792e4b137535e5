import PagePrep.Furigana.Axis
import PagePrep.Furigana.Options

namespace PagePrep

inductive NegateMode where
  | no
  | yes
  -- Invert if the border of the page is dark.
  | auto
deriving DecidableEq, Repr

namespace NegateMode

-- The number that stands for the mode where arguments go by position.
def ofCode (n : Nat) : Except String NegateMode :=
  match n with
  | 0 => .ok no
  | 1 => .ok yes
  | 2 => .ok auto
  | _ => .error s!"negate mode must be 0, 1 or 2 (got {n})"

def name : NegateMode → String
  | no   => "no"
  | yes  => "yes"
  | auto => "auto"

def title : NegateMode → String
  | no   => "No"
  | yes  => "Yes"
  | auto => "Auto"

-- All names, with the modes they stand for.
def names : List (String × NegateMode) :=
  [no, yes, auto].map fun mode => (mode.name, mode)

end NegateMode

inductive FuriganaMode where
  | disabled
  | vertical
  | horizontal
deriving DecidableEq, Repr

namespace FuriganaMode

def ofCode (n : Nat) : Except String FuriganaMode :=
  match n with
  | 0 => .ok disabled
  | 1 => .ok vertical
  | 2 => .ok horizontal
  | _ => .error s!"furigana mode must be 0, 1 or 2 (got {n})"

def name : FuriganaMode → String
  | disabled   => "disabled"
  | vertical   => "vertical"
  | horizontal => "horizontal"

def title : FuriganaMode → String
  | disabled   => "Disabled"
  | vertical   => "Vertical"
  | horizontal => "Horizontal"

def names : List (String × FuriganaMode) :=
  ([disabled, vertical, horizontal].map fun mode => (mode.name, mode)) ++ [("none", disabled)]

def orientation? : FuriganaMode → Option Orientation
  | disabled   => none
  | vertical   => some .vertical
  | horizontal => some .horizontal

end FuriganaMode

structure PolarityOptions where
  mode            : NegateMode := .auto
  -- The border darkness above which the page is inverted.
  darkBgThreshold : Float32    := 0.5
deriving DecidableEq, Repr

structure ScaleOptions where
  enabled : Bool    := true
  factor  : Float32 := 3.5
deriving DecidableEq, Repr

structure UnsharpOptions where
  enabled   : Bool    := true
  halfwidth : UInt32  := 5
  fract     : Float32 := 2.5
deriving DecidableEq, Repr

structure BinarizeOptions where
  enabled       : Bool    := true
  tileWidth     : UInt32  := 2000
  tileHeight    : UInt32  := 2000
  smoothX       : UInt32  := 0
  smoothY       : UInt32  := 0
  scoreFraction : Float32 := 0
deriving DecidableEq, Repr

structure FuriganaSettings where
  mode          : FuriganaMode   := .disabled
  minInk        : Float32        := 2
  minWidth      : Float32        := 5
  maxSpans      : UInt64         := 50
  keepRatio     : Float          := 0.9
  magnification : Option Float32 := none
deriving DecidableEq, Repr

def FuriganaSettings.toRemoval (s : FuriganaSettings) (magnification : Float32) : RemovalOptions :=
  RemovalOptions.withMagnification {} magnification
    |>.withMinInk s.minInk
    |>.withMinWidth s.minWidth
    |>.withMaxSpans s.maxSpans
    |>.withKeepRatio s.keepRatio

-- There is always room for one span at least.
theorem FuriganaSettings.toNat_maxSpans_toRemoval {s : FuriganaSettings} {m : Float32} :
    (s.toRemoval m).maxSpans.toNat = max 1 s.maxSpans.toNat := by
  change (if s.maxSpans ≤ 1 then (1 : UInt64) else s.maxSpans).toNat = _
  split
  case isTrue h =>
    have hle := UInt64.le_iff_toNat_le.mp h
    exact (Nat.max_eq_left hle).symm
  case isFalse h =>
    have hlt := mt UInt64.le_iff_toNat_le.mpr h
    exact (Nat.max_eq_right (Nat.le_of_not_le hlt)).symm

-- What is done to a page.
structure PageOptions where
  polarity : PolarityOptions  := {}
  scale    : ScaleOptions     := {}
  unsharp  : UnsharpOptions   := {}
  binarize : BinarizeOptions  := {}
  furigana : FuriganaSettings := {}
  threads  : Option UInt64    := none
deriving DecidableEq, Repr

-- A magnification that is given wins. Otherwise it is the factor by which the page is scaled.
def PageOptions.magnification (o : PageOptions) : Float32 :=
  o.furigana.magnification.getD (if o.scale.enabled then o.scale.factor else 1)

end PagePrep
