import PagePrep.Options.Config
import PagePrep.Text.Document

namespace PagePrep

def PolarityOptions.toFields (o : PolarityOptions) : Fields :=
  [("mode", .text o.mode.name), ("dark_bg_threshold", .single o.darkBgThreshold)]

def ScaleOptions.toFields (o : ScaleOptions) : Fields :=
  [("enabled", .bool o.enabled), ("factor", .single o.factor)]

def UnsharpOptions.toFields (o : UnsharpOptions) : Fields :=
  [("enabled", .bool o.enabled), ("halfwidth", .nat o.halfwidth.toNat), ("fract", .single o.fract)]

def BinarizeOptions.toFields (o : BinarizeOptions) : Fields :=
  [("enabled", .bool o.enabled), ("tile_width", .nat o.tileWidth.toNat),
    ("tile_height", .nat o.tileHeight.toNat), ("smooth_x", .nat o.smoothX.toNat),
    ("smooth_y", .nat o.smoothY.toNat), ("score_fraction", .single o.scoreFraction)]

def FuriganaSettings.toFields (o : FuriganaSettings) : Fields :=
  [("mode", .text o.mode.name), ("min_fg_pixels_per_line", .single o.minInk),
    ("min_span_width", .single o.minWidth), ("max_spans", .nat o.maxSpans.toNat),
    ("keep_ratio", .double o.keepRatio),
    ("magnification", o.magnification.elim .none .single)]

def threadsScalar (threads : Option UInt64) : Scalar :=
  threads.elim .none fun n => .nat n.toNat

def RuntimeOptions.toFields (o : RuntimeOptions) : Fields :=
  [("threads", threadsScalar o.threads)]

def PageOptions.toDocument (o : PageOptions) : Document where
  sections := [("polarity", o.polarity.toFields), ("scale", o.scale.toFields),
    ("unsharp", o.unsharp.toFields), ("binarize", o.binarize.toFields),
    ("furigana", o.furigana.toFields)]
  others := [("threads", threadsScalar o.threads)]

def Config.toDocument (c : Config) : Document where
  sections := [("polarity", c.polarity.toFields), ("scale", c.scale.toFields),
    ("unsharp", c.unsharp.toFields), ("binarize", c.binarize.toFields),
    ("furigana", c.furigana.toFields), ("runtime", c.runtime.toFields)]

def PageOptions.toJson (o : PageOptions) : String :=
  o.toDocument.toJson

def Config.toToml? (c : Config) : Option String :=
  c.toDocument.toToml?

end PagePrep
