import PagePrep.Options.Config
import PagePrep.Text.Value

namespace PagePrep

-- The formats differ in the values that say no more than a name does, and in what they make of an
-- array with more items than there are fields.
inductive Format where
  | json
  | toml
deriving DecidableEq, Repr

namespace Decode

def isUnit (format : Format) : Value → Bool
  | .null      => format = .json
  | .table es  => format = .toml && es.isEmpty
  | .array vs  => format = .toml && vs.isEmpty
  | _          => false

def bool? : Value → Option Bool
  | .bool b => some b
  | _       => none

-- An integer below the bound, but not a number with a fraction, even of zero.
def natBelow? (bound : Nat) : Value → Option Nat
  | .int n => if 0 ≤ n ∧ n < bound then some n.toNat else none
  | _      => none

def uint32? (v : Value) : Option UInt32 :=
  (natBelow? UInt32.size v).map .ofNat

def uint64? (v : Value) : Option UInt64 :=
  (natBelow? UInt64.size v).map .ofNat

def float? : Value → Option Float
  | .int n   => some (Decimal.ofInt n).toFloat
  | .float x => some x
  | _        => none

def float32? : Value → Option Float32
  | .int n   => some (Decimal.ofInt n).toFloat32
  | .float x => some (narrow x)
  | _        => none

def optional? {α : Type} (decode : Value → Option α) : Value → Option (Option α)
  | .null => some none
  | v     => (decode v).map some

-- One of some names, by itself or as the only entry of a table.
def choice? {α : Type} (format : Format) (names : List (String × α)) : Value → Option α
  | .string s          => names.lookup s
  | .table [(name, v)] => if isUnit format v then names.lookup name else none
  | _                  => none

-- The fields of a section by name, none of which may be given twice. In TOML the text would not
-- have been read. A section may also be the array of its fields in their order, the last of which
-- may be missing. Only in TOML may further items follow, which do not matter. What a moment has
-- inside is no field of any section.
def fields? (format : Format) (names : List String) : Value → Option (String → Option Value)
  | .table entries =>
    if format = .json ∧ ¬((entries.map Prod.fst).filter (· ∈ names)).Nodup then none
    else some (Value.get? entries)
  | .array items   =>
    if format = .json ∧ names.length < items.length then none
    else some fun name => (names.zip items).lookup name
  | .moment        => some fun _ => none
  | _              => none

-- A field that is missing has its default.
def field? {α : Type} (fields : String → Option Value) (name : String) (default : α)
    (decode : Value → Option α) : Option α :=
  match fields name with
  | none   => some default
  | some v => decode v

def polarity? (format : Format) (v : Value) : Option PolarityOptions := do
  let fields ← fields? format ["mode", "dark_bg_threshold"] v
  let d : PolarityOptions := {}
  return {
    mode            := ← field? fields "mode" d.mode (choice? format NegateMode.names)
    darkBgThreshold := ← field? fields "dark_bg_threshold" d.darkBgThreshold float32?
  }

def scale? (format : Format) (v : Value) : Option ScaleOptions := do
  let fields ← fields? format ["enabled", "factor"] v
  let d : ScaleOptions := {}
  return {
    enabled := ← field? fields "enabled" d.enabled bool?
    factor  := ← field? fields "factor" d.factor float32?
  }

def unsharp? (format : Format) (v : Value) : Option UnsharpOptions := do
  let fields ← fields? format ["enabled", "halfwidth", "fract"] v
  let d : UnsharpOptions := {}
  return {
    enabled   := ← field? fields "enabled" d.enabled bool?
    halfwidth := ← field? fields "halfwidth" d.halfwidth uint32?
    fract     := ← field? fields "fract" d.fract float32?
  }

def binarize? (format : Format) (v : Value) : Option BinarizeOptions := do
  let fields ← fields? format
    ["enabled", "tile_width", "tile_height", "smooth_x", "smooth_y", "score_fraction"] v
  let d : BinarizeOptions := {}
  return {
    enabled       := ← field? fields "enabled" d.enabled bool?
    tileWidth     := ← field? fields "tile_width" d.tileWidth uint32?
    tileHeight    := ← field? fields "tile_height" d.tileHeight uint32?
    smoothX       := ← field? fields "smooth_x" d.smoothX uint32?
    smoothY       := ← field? fields "smooth_y" d.smoothY uint32?
    scoreFraction := ← field? fields "score_fraction" d.scoreFraction float32?
  }

def furigana? (format : Format) (v : Value) : Option FuriganaSettings := do
  let fields ← fields? format
    ["mode", "min_fg_pixels_per_line", "min_span_width", "max_spans", "keep_ratio",
      "magnification"] v
  let d : FuriganaSettings := {}
  return {
    mode          := ← field? fields "mode" d.mode (choice? format FuriganaMode.names)
    minInk        := ← field? fields "min_fg_pixels_per_line" d.minInk float32?
    minWidth      := ← field? fields "min_span_width" d.minWidth float32?
    maxSpans      := ← field? fields "max_spans" d.maxSpans uint64?
    keepRatio     := ← field? fields "keep_ratio" d.keepRatio float?
    magnification := ← field? fields "magnification" d.magnification (optional? float32?)
  }

def runtime? (format : Format) (v : Value) : Option RuntimeOptions := do
  let fields ← fields? format ["threads"] v
  return { threads := ← field? fields "threads" none (optional? uint64?) }

def pageOptions? (format : Format) (v : Value) : Option PageOptions := do
  let fields ← fields? format ["polarity", "scale", "unsharp", "binarize", "furigana", "threads"] v
  return {
    polarity := ← field? fields "polarity" {} (polarity? format)
    scale    := ← field? fields "scale" {} (scale? format)
    unsharp  := ← field? fields "unsharp" {} (unsharp? format)
    binarize := ← field? fields "binarize" {} (binarize? format)
    furigana := ← field? fields "furigana" {} (furigana? format)
    threads  := ← field? fields "threads" none (optional? uint64?)
  }

def config? (format : Format) (v : Value) : Option Config := do
  let fields ← fields? format ["polarity", "scale", "unsharp", "binarize", "furigana", "runtime"] v
  return {
    polarity := ← field? fields "polarity" {} (polarity? format)
    scale    := ← field? fields "scale" {} (scale? format)
    unsharp  := ← field? fields "unsharp" {} (unsharp? format)
    binarize := ← field? fields "binarize" {} (binarize? format)
    furigana := ← field? fields "furigana" {} (furigana? format)
    runtime  := ← field? fields "runtime" {} (runtime? format)
  }

end Decode

end PagePrep
