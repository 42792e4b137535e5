import PagePrep.Command.Basic
import PagePrep.Pipeline.Basic

-- What is asked for by positions can be asked for by names. The options that come of the two may
-- differ in a scale factor, but only while no page is scaled by it.

namespace PagePrep

namespace PageOptions

-- Options that differ at most in a scale factor, which must then be of no use.
structure SameEffect (o o' : PageOptions) : Prop where
  other         : o' = { o with scale.factor := o'.scale.factor }
  factor        : o.scale.enabled → o'.scale.factor = o.scale.factor
  magnification : o'.magnification = o.magnification

namespace SameEffect

variable {o o' : PageOptions}

theorem scale_enabled (h : o.SameEffect o') : o'.scale.enabled = o.scale.enabled := by
  rw [h.other]

theorem eq (h : o.SameEffect o') (hs : o.scale.enabled) : o' = o := by
  rw [h.other, h.factor hs]

theorem invalid? (h : o.SameEffect o') : o'.invalid? = o.invalid? := by
  by_cases hs : o.scale.enabled
  case pos => rw [h.eq hs]
  case neg =>
    rw [PageOptions.invalid?, PageOptions.invalid?, h.magnification, h.other]
    simp only [hs, Bool.false_eq_true, false_and, if_false]

theorem scaleIfEnabled (h : o.SameEffect o') (image : GrayImage) :
    image.scaleIfEnabled o'.scale = image.scaleIfEnabled o.scale := by
  rw [GrayImage.scaleIfEnabled, GrayImage.scaleIfEnabled, h.scale_enabled]
  by_cases hs : o.scale.enabled
  case pos => rw [h.factor hs]
  case neg => rw [if_neg hs, if_neg hs]

theorem removeFuriganaIfEnabled (h : o.SameEffect o') (page : Page) :
    page.removeFuriganaIfEnabled o' = page.removeFuriganaIfEnabled o := by
  rw [Page.removeFuriganaIfEnabled, Page.removeFuriganaIfEnabled, h.magnification, h.other]

theorem processPicture (h : o.SameEffect o') (picture : Picture) :
    processPicture o' picture = processPicture o picture := by
  have hp : o'.polarity = o.polarity := by rw [h.other]
  have hu : o'.unsharp = o.unsharp := by rw [h.other]
  have hb : o'.binarize = o.binarize := by rw [h.other]
  simp only [PagePrep.processPicture, Picture.prepare, hp, hu, hb, h.scaleIfEnabled,
    h.removeFuriganaIfEnabled]

theorem processImage (h : o.SameEffect o') (startThreads : UInt64 → Except String Unit)
    (picture : Picture) :
    processImage startThreads o' picture = processImage startThreads o picture := by
  have ht : o'.threads = o.threads := by rw [h.other]
  simp only [PagePrep.processImage, ht, h.processPicture]

end SameEffect

end PageOptions

namespace LegacyArguments

-- The same arguments by their names. Switches that are on are so without being mentioned.
def byName (a : LegacyArguments) : ProcessArguments where
  input                 := a.input
  output                := a.output
  negate                := [.no, .yes, .auto][a.negate.toNat]?
  darkBgThreshold       := some a.darkBgThreshold
  scale                 := if a.scale = 0 then none else some a.scaleFactor
  noScale               := a.scale = 0
  unsharpHalfwidth      := some a.unsharpHalfwidth
  unsharpFract          := some a.unsharpFract
  noUnsharp             := a.unsharp = 0
  noBinarize            := a.binarize = 0
  tileWidth             := some a.tileWidth
  tileHeight            := some a.tileHeight
  smoothX               := some a.smoothX
  smoothY               := some a.smoothY
  scoreFraction         := some a.scoreFraction
  furigana              := [.disabled, .vertical, .horizontal][a.furigana.toNat]?
  furiganaMagnification := some a.scaleFactor

variable {a : LegacyArguments}

theorem code_cases {code : UInt8} (h : code ≤ 2) :
    code.toNat = 0 ∨ code.toNat = 1 ∨ code.toNat = 2 := by
  have h : code.toNat ≤ 2 := UInt8.le_iff_toNat_le.mp h
  omega

theorem exists_negate (h : a.negate ≤ 2) :
    ∃ mode, NegateMode.ofCode a.negate.toNat = .ok mode ∧ a.byName.negate = some mode := by
  rw [byName]
  obtain hc | hc | hc := code_cases h
  · exact ⟨.no, by rw [hc]; rfl, by rw [hc]; rfl⟩
  · exact ⟨.yes, by rw [hc]; rfl, by rw [hc]; rfl⟩
  · exact ⟨.auto, by rw [hc]; rfl, by rw [hc]; rfl⟩

theorem exists_furigana (h : a.furigana ≤ 2) :
    ∃ mode, FuriganaMode.ofCode a.furigana.toNat = .ok mode ∧ a.byName.furigana = some mode := by
  rw [byName]
  obtain hc | hc | hc := code_cases h
  · exact ⟨.disabled, by rw [hc]; rfl, by rw [hc]; rfl⟩
  · exact ⟨.vertical, by rw [hc]; rfl, by rw [hc]; rfl⟩
  · exact ⟨.horizontal, by rw [hc]; rfl, by rw [hc]; rfl⟩

end LegacyArguments

-- Two ways to give options are the same to the user: either both are refused for the same option,
-- or what they ask for comes to the same on every picture.
inductive Agree : (x y : Except ConfigError PageOptions) → Prop where
  | refused (option : InvalidOption) :
    Agree (.error (.invalidValue option)) (.error (.invalidValue option))
  | accepted {o o' : PageOptions}
      (other : o' = { o with scale.factor := o'.scale.factor })
      (factor : o.scale.enabled → o' = o)
      (pages : ∀ startThreads picture,
        processImage startThreads o' picture = processImage startThreads o picture) :
    Agree (.ok o) (.ok o')

theorem PageOptions.SameEffect.agree {o o' : PageOptions} (h : o.SameEffect o') :
    Agree o.validate o'.validate := by
  rw [validate, validate, h.invalid?]
  cases o.invalid?
  case some option => exact .refused option
  case none        => exact .accepted h.other h.eq h.processImage

@[simp] theorem ProcessArguments.turnedOff_getD_true (off : Bool) :
    (turnedOff off).getD true = !off := by
  cases off <;> rfl

namespace LegacyArguments

variable {a : LegacyArguments}

theorem byName_toOverrides_scale : a.byName.toOverrides.scale = some (decide (a.scale ≠ 0)) := by
  rw [ProcessArguments.toOverrides, byName]
  by_cases h : a.scale = 0
  case pos => simp [h, ProcessArguments.turnedOff]
  case neg => simp [h, ProcessArguments.turnedOff]

-- A factor that is given by its position only is that of a page that is not scaled.
theorem sameEffect_byName (hn : a.negate ≤ 2) (hf : a.furigana ≤ 2) :
    ∃ overrides, a.toOverrides = .ok overrides ∧
      (overrides.applyTo ({} : Config).toOptions).SameEffect
        (a.byName.toOverrides.applyTo ({} : Config).toOptions) := by
  obtain ⟨negate, hn, hn'⟩ := exists_negate hn
  obtain ⟨furigana, hf, hf'⟩ := exists_furigana hf
  refine ⟨_, by rw [toOverrides, hn, hf]; rfl, ?other, ?factor, ?magnification⟩
  case other =>
    simp only [Overrides.applyTo, byName_toOverrides_scale]
    simp only [ProcessArguments.toOverrides, hn', hf']
    simp [byName, Config.toOptions]
  case factor =>
    intro hs
    have hs : a.scale ≠ 0 := of_decide_eq_true hs
    simp [Overrides.applyTo, ProcessArguments.toOverrides, byName, hs]
  case magnification => rfl

theorem merge_byName (hn : a.negate ≤ 2) (hf : a.furigana ≤ 2) :
    ∃ overrides, a.toOverrides = .ok overrides ∧
      Agree (({} : Config).merge overrides) (({} : Config).merge a.byName.toOverrides) := by
  obtain ⟨overrides, ho, h⟩ := sameEffect_byName hn hf
  exact ⟨overrides, ho, h.agree⟩

-- The page is not scaled, so its factor can only be given as a magnification.
def unscaledPage : LegacyArguments where
  input            := "scan.pgm"
  output           := "page.pbm"
  negate           := 2
  darkBgThreshold  := 0.5
  scaleFactor      := 2
  unsharp          := 1
  unsharpHalfwidth := 3
  unsharpFract     := 1.5
  binarize         := 7
  tileWidth        := 64
  tileHeight       := 32
  furigana         := 1

theorem merge_byName_unscaledPage :
    ∃ overrides, unscaledPage.toOverrides = .ok overrides ∧
      Agree (({} : Config).merge overrides) (({} : Config).merge unscaledPage.byName.toOverrides) :=
  merge_byName (by decide) (by decide)

end LegacyArguments

end PagePrep
