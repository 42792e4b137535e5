import PagePrep.Options.Basic

namespace PagePrep

-- Like `clampUnit`, for the shorter format: what is not a number stays as it is.
def clampUnit32 (x : Float32) : Float32 :=
  if x < 0 then 0 else if 1 < x then 1 else x

-- Setters for one option after the other, starting from the defaults.
namespace PageOptions

def withNegate (o : PageOptions) (mode : NegateMode) : PageOptions :=
  { o with polarity.mode := mode }

def withDarkBgThreshold (o : PageOptions) (x : Float32) : PageOptions :=
  { o with polarity.darkBgThreshold := clampUnit32 x }

-- Without a factor the page is not scaled, and the factor stays what it was.
def withScale (o : PageOptions) (factor : Option Float32) : PageOptions :=
  match factor with
  | some factor => { o with scale := ⟨true, factor⟩ }
  | none        => { o with scale.enabled := false }

def withUnsharp (o : PageOptions) (mask : Option (UInt32 × Float32)) : PageOptions :=
  match mask with
  | some (halfwidth, fract) => { o with unsharp := ⟨true, halfwidth, fract⟩ }
  | none                    => { o with unsharp.enabled := false }

def withBinarize (o : PageOptions) (enabled : Bool) : PageOptions :=
  { o with binarize.enabled := enabled }

def withTile (o : PageOptions) (width height : UInt32) : PageOptions :=
  { o with binarize.tileWidth := width, binarize.tileHeight := height }

def withSmoothing (o : PageOptions) (x y : UInt32) : PageOptions :=
  { o with binarize.smoothX := x, binarize.smoothY := y }

def withScoreFraction (o : PageOptions) (x : Float32) : PageOptions :=
  { o with binarize.scoreFraction := clampUnit32 x }

def withFurigana (o : PageOptions) (mode : FuriganaMode) : PageOptions :=
  { o with furigana.mode := mode }

def withThreads (o : PageOptions) (threads : UInt64) : PageOptions :=
  { o with threads := some (max threads 1) }

end PageOptions

end PagePrep
