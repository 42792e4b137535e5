import PagePrep.Command.Run
import PagePrep.Proofs.Command.Reading
import PagePrep.Proofs.Files.Config
import PagePrep.Proofs.Options.Check
import PagePrep.Proofs.Options.Origin

-- Where the options of a page come from: the command line goes before the file of a configuration,
-- and that before the defaults. They are only checked when all of them are known.

namespace PagePrep

namespace ProcessArguments

section Origins

open Decode

-- Options with the origins that arguments and a configuration give them.
structure Settles (a : ProcessArguments) (document : Option Value) (o : PageOptions) : Prop where
  negate : Origin a.negate (setting? document "polarity" "mode") (choice? .toml NegateMode.names)
    .auto o.polarity.mode
  darkBgThreshold : Origin a.darkBgThreshold (setting? document "polarity" "dark_bg_threshold")
    float32? 0.5 o.polarity.darkBgThreshold
  -- A factor turns scaling on, even where the configuration has turned it off.
  scale : Origin (if a.noScale then some false else a.scale.map fun _ => true)
    (setting? document "scale" "enabled") bool? true o.scale.enabled
  scaleFactor : Origin a.scale (setting? document "scale" "factor") float32? 3.5 o.scale.factor
  unsharp : Origin (if a.noUnsharp then some false else none)
    (setting? document "unsharp" "enabled") bool? true o.unsharp.enabled
  unsharpHalfwidth : Origin a.unsharpHalfwidth (setting? document "unsharp" "halfwidth") uint32? 5
    o.unsharp.halfwidth
  unsharpFract : Origin a.unsharpFract (setting? document "unsharp" "fract") float32? 2.5
    o.unsharp.fract
  binarize : Origin (if a.noBinarize then some false else none)
    (setting? document "binarize" "enabled") bool? true o.binarize.enabled
  tileWidth : Origin a.tileWidth (setting? document "binarize" "tile_width") uint32? 2000
    o.binarize.tileWidth
  tileHeight : Origin a.tileHeight (setting? document "binarize" "tile_height") uint32? 2000
    o.binarize.tileHeight
  smoothX : Origin a.smoothX (setting? document "binarize" "smooth_x") uint32? 0 o.binarize.smoothX
  smoothY : Origin a.smoothY (setting? document "binarize" "smooth_y") uint32? 0 o.binarize.smoothY
  scoreFraction : Origin a.scoreFraction (setting? document "binarize" "score_fraction") float32? 0
    o.binarize.scoreFraction
  furigana : Origin a.furigana (setting? document "furigana" "mode")
    (choice? .toml FuriganaMode.names) .disabled o.furigana.mode
  -- Four thresholds can only be set by a configuration.
  minInk : Origin none (setting? document "furigana" "min_fg_pixels_per_line") float32? 2
    o.furigana.minInk
  minWidth : Origin none (setting? document "furigana" "min_span_width") float32? 5
    o.furigana.minWidth
  maxSpans : Origin none (setting? document "furigana" "max_spans") uint64? 50 o.furigana.maxSpans
  keepRatio : Origin none (setting? document "furigana" "keep_ratio") float? 0.9
    o.furigana.keepRatio
  furiganaMagnification : Origin (a.furiganaMagnification.map some)
    (setting? document "furigana" "magnification") (optional? float32?) none
    o.furigana.magnification
  threads : Origin (a.threads.map some) (setting? document "runtime" "threads") (optional? uint64?)
    none o.threads

end Origins

namespace Settles

variable {a : ProcessArguments} {document : Option Value} {o o' : PageOptions}

theorem unique (h : a.Settles document o) (h' : a.Settles document o') : o = o' := by
  obtain ⟨⟨_, _⟩, ⟨_, _⟩, ⟨_, _, _⟩, ⟨_, _, _, _, _, _⟩, ⟨_, _, _, _, _, _⟩, _⟩ := o
  obtain ⟨⟨_, _⟩, ⟨_, _⟩, ⟨_, _, _⟩, ⟨_, _, _, _, _, _⟩, ⟨_, _, _, _, _, _⟩, _⟩ := o'
  cases h.negate.unique h'.negate
  cases h.darkBgThreshold.unique h'.darkBgThreshold
  cases h.scale.unique h'.scale
  cases h.scaleFactor.unique h'.scaleFactor
  cases h.unsharp.unique h'.unsharp
  cases h.unsharpHalfwidth.unique h'.unsharpHalfwidth
  cases h.unsharpFract.unique h'.unsharpFract
  cases h.binarize.unique h'.binarize
  cases h.tileWidth.unique h'.tileWidth
  cases h.tileHeight.unique h'.tileHeight
  cases h.smoothX.unique h'.smoothX
  cases h.smoothY.unique h'.smoothY
  cases h.scoreFraction.unique h'.scoreFraction
  cases h.furigana.unique h'.furigana
  cases h.minInk.unique h'.minInk
  cases h.minWidth.unique h'.minWidth
  cases h.maxSpans.unique h'.maxSpans
  cases h.keepRatio.unique h'.keepRatio
  cases h.furiganaMagnification.unique h'.furiganaMagnification
  cases h.threads.unique h'.threads
  rfl

-- To ask for a factor is to ask for scaling by it.
theorem scale_eq {factor : Float32} (h : a.Settles document o) (hs : a.scale = some factor)
    (hn : ¬a.noScale) : o.scale = ⟨true, factor⟩ := by
  have henabled : o.scale.enabled = true := h.scale.unique (.given (by rw [if_neg hn, hs]; rfl))
  have hfactor : o.scale.factor = factor := h.scaleFactor.unique (.given hs)
  rw [← henabled, ← hfactor]

-- Without arguments and without a configuration, all options are as by default.
theorem default : ({} : ProcessArguments).Settles none ({} : Config).toOptions := by
  constructor <;> exact .default rfl rfl

-- What a configuration does not have is as by default, be it a field or a whole part.
theorem of_config? {document : Value} {config : Config}
    (h : Decode.config? .toml document = some config) :
    ({} : ProcessArguments).Settles (some document) config.toOptions := by
  simp only [Decode.config?, Option.bind_eq_bind, Option.bind_eq_some_iff, Option.pure_def,
    Option.some.injEq] at h
  obtain ⟨fields, hf, _, hpolarity, _, hscale, _, hunsharp, _, hbinarize, _, hfurigana, _, hruntime,
    rfl⟩ := h
  obtain ⟨_, hp, hpolarity⟩ := Decode.exists_part hpolarity rfl
  obtain ⟨_, hs, hscale⟩ := Decode.exists_part hscale rfl
  obtain ⟨_, hu, hunsharp⟩ := Decode.exists_part hunsharp rfl
  obtain ⟨_, hb, hbinarize⟩ := Decode.exists_part hbinarize rfl
  obtain ⟨_, hg, hfurigana⟩ := Decode.exists_part hfurigana rfl
  obtain ⟨_, hr, hruntime⟩ := Decode.exists_part hruntime rfl
  obtain ⟨hnegate, hthreshold⟩ := Decode.origin_polarity hp
  obtain ⟨hscaled, hfactor⟩ := Decode.origin_scale hs
  obtain ⟨hsharpened, hhalfwidth, hfract⟩ := Decode.origin_unsharp hu
  obtain ⟨hbinary, hwidth, hheight, hx, hy, hfraction⟩ := Decode.origin_binarize hb
  obtain ⟨hmode, hink, hspan, hspans, hratio, hmagnification⟩ := Decode.origin_furigana hg
  have hthreads := Decode.origin_runtime hr
  constructor
  all_goals
    simp only [Decode.setting?_eq hf, hpolarity, hscale, hunsharp, hbinarize, hfurigana, hruntime]
    assumption

theorem override (h : ({} : ProcessArguments).Settles document o) (a : ProcessArguments) :
    a.Settles document (a.toOverrides.applyTo o) where
  negate := h.negate.override _
  darkBgThreshold := h.darkBgThreshold.override _
  scale := by
    have hs : a.toOverrides.scale =
        if a.noScale then some false else a.scale.map fun _ => true := by
      rw [toOverrides]
      cases a.noScale <;> rfl
    rw [← hs]
    exact h.scale.override _
  scaleFactor := h.scaleFactor.override _
  unsharp := h.unsharp.override _
  unsharpHalfwidth := h.unsharpHalfwidth.override _
  unsharpFract := h.unsharpFract.override _
  binarize := h.binarize.override _
  tileWidth := h.tileWidth.override _
  tileHeight := h.tileHeight.override _
  smoothX := h.smoothX.override _
  smoothY := h.smoothY.override _
  scoreFraction := h.scoreFraction.override _
  furigana := h.furigana.override _
  minInk := h.minInk
  minWidth := h.minWidth
  maxSpans := h.maxSpans
  keepRatio := h.keepRatio
  furiganaMagnification := h.furiganaMagnification.override_or _
  threads := h.threads.override_or _

end Settles

-- How arguments and a configuration end up as options. Only the options that come of both together
-- are checked.
inductive Resolution (a : ProcessArguments) :
    Except ConfigError (Option Value) → Except ConfigError PageOptions → Prop where
  | unusable {e : ConfigError} : Resolution a (.error e) (.error e)
  | accepted {document : Option Value} {o : PageOptions} (ho : a.Settles document o)
      (hc : ∀ check ∈ o.checks, check.1) : Resolution a (.ok document) (.ok o)
  | refused {document : Option Value} {o : PageOptions} {option : InvalidOption}
      (ho : a.Settles document o) (hc : FirstFailure o.checks (some option)) :
    Resolution a (.ok document) (.error (.invalidValue option))

namespace Resolution

variable {a : ProcessArguments} {document : Except ConfigError (Option Value)}
  {result result' : Except ConfigError PageOptions} {config : Except ConfigError Config}

theorem exists_settles {document : Option Value} (h : a.Resolution (.ok document) result) :
    ∃ o, a.Settles document o ∧ result = o.validate := by
  cases h
  case accepted o hc ho =>
    refine ⟨o, ho, ?_⟩
    rw [PageOptions.validate, o.firstFailure_invalid?.unique (FirstFailure.none_iff.mpr hc)]
  case refused o _ hc ho =>
    refine ⟨o, ho, ?_⟩
    rw [PageOptions.validate, o.firstFailure_invalid?.unique hc]

theorem unique (h : a.Resolution document result) (h' : a.Resolution document result') :
    result = result' := by
  cases document
  case error =>
    cases h
    cases h'
    rfl
  case ok =>
    obtain ⟨_, ho, rfl⟩ := h.exists_settles
    obtain ⟨_, ho', rfl⟩ := h'.exists_settles
    rw [ho.unique ho']

theorem of_settles {document : Option Value} {o : PageOptions} (ho : a.Settles document o) :
    a.Resolution (.ok document) o.validate := by
  have hc := o.firstFailure_invalid?
  rw [PageOptions.validate]
  split
  case h_1 option h => exact .refused ho (h ▸ hc)
  case h_2 h        => exact .accepted ho (FirstFailure.none_iff.mp (h ▸ hc))

theorem of_loads (h : Store.Loads document config) (a : ProcessArguments) :
    a.Resolution document (config.bind fun config => config.merge a.toOverrides) := by
  cases h
  case failed     => exact .unusable
  case default    => exact .of_settles (Settles.default.override a)
  case decoded hd => exact .of_settles ((Settles.of_config? hd).override a)

theorem scale_eq {o : PageOptions} {factor : Float32} (h : a.Resolution document (.ok o))
    (hs : a.scale = some factor) (hn : ¬a.noScale) : o.scale = ⟨true, factor⟩ := by
  cases h
  case accepted ho _ => exact ho.scale_eq hs hn

end Resolution

end ProcessArguments

namespace Environment

variable (env : Environment) (s : Store)

theorem exists_selects_config (named : Option String) :
    ∃ looked source, s.Selects (Store.configPaths env.userDirectory) named looked source ∧
      env.config s named = s.loadSource source := by
  cases named
  case none      => exact s.exists_selects_loadConfig env.userDirectory
  case some path => exact ⟨[path], some path, .named, rfl⟩

theorem exists_resolution (a : ProcessArguments) :
    ∃ looked source document,
      s.Selects (Store.configPaths env.userDirectory) a.config looked source ∧
      s.Says source document ∧ a.Resolution document (env.resolve s a) := by
  obtain ⟨looked, source, hs, hc⟩ := env.exists_selects_config s a.config
  obtain ⟨document, hd, hl⟩ := s.exists_says_loadSource source
  refine ⟨looked, source, document, hs, hd, ?_⟩
  rw [resolve, hc]
  exact .of_loads hl a

theorem resolve_origins (a : ProcessArguments) :
    ∃ looked source document,
      (∀ looked' source',
        s.Selects (Store.configPaths env.userDirectory) a.config looked' source' ↔
          looked' = looked ∧ source' = source) ∧
      (∀ document', s.Says source document' ↔ document' = document) ∧
      (∀ result, a.Resolution document result ↔ result = env.resolve s a) ∧
      (∀ arguments globals o factor, Invocation.ofArguments arguments = .ok ⟨.process a, globals⟩ →
        env.resolve s a = .ok o → a.scale = some factor → o.scale = ⟨true, factor⟩) ∧
      ∀ s', (∀ path ∈ looked, s'.entry path = s.entry path) →
        env.resolve s' a = env.resolve s a := by
  obtain ⟨looked, source, document, hs, hd, hr⟩ := env.exists_resolution s a
  refine ⟨looked, source, document, fun looked' source' => ⟨fun hs' => hs'.unique hs, ?_⟩,
    fun document' => ⟨fun hd' => hd'.unique hd, ?_⟩, fun result => ⟨fun hr' => hr'.unique hr, ?_⟩,
    fun arguments globals o factor hi ho hf => ?_, fun s' h => ?_⟩
  · rintro ⟨rfl, rfl⟩
    exact hs
  · rintro rfl
    exact hd
  · rintro rfl
    exact hr
  · have hn : ¬a.noScale := fun hn =>
      Invocation.consistent_ofArguments arguments _ hi ⟨by rw [hf]; rfl, hn⟩
    exact (ho ▸ hr).scale_eq hf hn
  · -- The same file is found in both stores, and says the same.
    obtain ⟨looked', source', document', hs', hd', hr'⟩ := env.exists_resolution s' a
    obtain ⟨rfl, rfl⟩ := (hs.congr h).unique hs'
    have hsource : ∀ path, source = some path → s'.entry path = s.entry path := by
      rintro path rfl
      exact h path hs.mem_looked
    cases (hd.congr hsource).unique hd'
    exact hr'.unique hr

-- That one of the files can not be read does not matter, since another one comes before it.
def drawer : Store where
  start := []
  entryAt? place :=
    if place = ["ocr-preprocess.toml"] then
      some (.file (Bytes.ofAscii "scale = \x7b factor = 2, enabled = false \x7d") true true)
    else if place = ["home"] ∨ place = ["home", "ocr-preprocess"] then some (.directory true true)
    else if place = ["home", "ocr-preprocess", "config.toml"] then some (.file [] false false)
    else none

def atHome : Environment where
  userDirectory := some "home"
  platform      := "linux"
  architecture  := "x86_64"
  processors    := 1
  decoder       := fun _ _ => .error "not a picture"
  encoders      := fun _ _ => { bytes := [], failure? := some "no encoder for the format" }
  startThreads  := fun _ => .ok ()

example : (atHome.resolve drawer { noUnsharp := true }).toOption =
    some { scale := ⟨false, 2⟩, unsharp.enabled := false } := by
  decide +kernel

end Environment

end PagePrep
