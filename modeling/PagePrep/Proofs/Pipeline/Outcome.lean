import PagePrep.Options.Config
import PagePrep.Pipeline.Basic
import PagePrep.Proofs.Furigana.Removal

-- Whether a page comes out of the pipeline depends on the options and the size of the picture
-- only. Each step says when it fails, and the failure of the pipeline is that of the first step
-- that does.

namespace PagePrep

section Ends

variable {ε ε' α β : Type}

-- How a computation ends: with the error, or if there is none with a value that `P` holds of.
def Ends (failure? : Option ε) (P : α → Prop) (x : Except ε α) : Prop :=
  match failure? with
  | some e => x = .error e
  | none   => ∃ a, x = .ok a ∧ P a

namespace Ends

variable {f g : Option ε} {P : α → Prop} {Q : β → Prop} {x : Except ε α} {k : α → Except ε β}

theorem ok {a : α} (h : P a) : Ends (none : Option ε) P (.ok a) :=
  ⟨a, rfl, h⟩

theorem eq_error {e : ε} (h : Ends (some e) P x) : x = .error e :=
  h

theorem bind (h : Ends f P x) (hk : ∀ a, P a → Ends g Q (k a)) :
    Ends (f.or g) Q (x >>= k) := by
  cases f
  case some e =>
    cases h
    rfl
  case none =>
    obtain ⟨a, rfl, ha⟩ := h
    exact hk a ha

theorem bind_total (h : Ends f P x) (hk : ∀ a, P a → Ends none Q (k a)) :
    Ends f Q (x >>= k) :=
  Option.or_none (o := f) ▸ h.bind hk

theorem mapError (h : Ends f P x) (m : ε → ε') : Ends (f.map m) P (x.mapError m) := by
  cases f
  case some e =>
    cases h
    rfl
  case none =>
    obtain ⟨a, rfl, ha⟩ := h
    exact ⟨a, rfl, ha⟩

end Ends

end Ends

-- The size of a picture, and of what is made of it.
def Grid.HasSize {α : Type} (width height : UInt32) (g : Grid α) : Prop :=
  g.width = width ∧ g.height = height

section Refusals

-- Why a picture of this size can not be binarized.
def BinarizeOptions.refusal? (o : BinarizeOptions) (width height : UInt32) :
    Option BinarizeError :=
  if width = 0 ∨ height = 0 then
    some .emptyImage
  else if o.tileWidth < minTileSize ∨ o.tileHeight < minTileSize then
    some (.tileSize o.tileWidth o.tileHeight)
  else
    none

theorem BinarizeOptions.ne_zero_of_refusal? {o : BinarizeOptions} {width height : UInt32}
    (h : o.refusal? width height = none) : width ≠ 0 ∧ height ≠ 0 := by
  rw [refusal?] at h
  split at h
  case isTrue     => nomatch h
  case isFalse hn => exact not_or.mp hn

namespace ScaleOptions

-- The size that is asked for. It may be too large, or less than a pixel.
def scaled (o : ScaleOptions) (size : UInt32) : Float :=
  wholePart (size.toFloat * widen o.factor + 0.5)

def tooLarge? (o : ScaleOptions) (size : UInt32) : Option ScaleError :=
  if maxScaledSize.toFloat < o.scaled size then some (.tooLarge (o.scaled size)) else none

-- Why a picture of this size can not be scaled.
def refusal? (o : ScaleOptions) (width height : UInt32) : Option ScaleError :=
  if width = 0 ∨ height = 0 then
    some .emptyImage
  else
    (o.tooLarge? width).or (o.tooLarge? height)

-- The size after the scaling, which may be switched off.
def size (o : ScaleOptions) (size : UInt32) : UInt32 :=
  if o.enabled then max (o.scaled size).toUInt32 1 else size

end ScaleOptions

def UnsharpOptions.refusal? (o : UnsharpOptions) : Option UnsharpError :=
  if o.fract.isFinite then none else some ⟨o.fract⟩

namespace PageOptions

variable (o : PageOptions) (width height : UInt32)

def polarityFailure? : Option PageError :=
  if o.polarity.mode = .auto then
    (o.binarize.refusal? width height).map fun e =>
      .polarityFailed (PageError.binarizeFailed e.reason).message
  else
    none

def scaleFailure? : Option PageError :=
  if o.scale.enabled then
    (o.scale.refusal? width height).map fun e => .scaleFailed e.reason
  else
    none

def sharpenFailure? : Option PageError :=
  if o.unsharp.enabled then o.unsharp.refusal?.map fun e => .sharpenFailed e.reason else none

def binarizeFailure? : Option PageError :=
  if o.binarize.enabled then
    (o.binarize.refusal? (o.scale.size width) (o.scale.size height)).map fun e =>
      .binarizeFailed e.reason
  else
    none

-- What goes wrong before there is a page in shades of gray.
def prepareFailure? : Option PageError :=
  o.polarityFailure? width height
    |>.or (o.scaleFailure? width height)
    |>.or o.sharpenFailure?

-- The first error that a picture of this size runs into.
def error? : Option PageError :=
  (o.prepareFailure? width height).or (o.binarizeFailure? width height)

-- No room for the spans: the removal is the last step, and has no error of its own.
def panic? : Option Panic :=
  if o.binarize.enabled ∧ o.furigana.mode ≠ .disabled ∧
      ¬SpanList.Reservable o.furigana.maxSpans.toNat then
    some .capacityOverflow
  else
    none

-- The first failure that a picture of this size runs into.
def failure? : Option (Failure PageError) :=
  ((o.error? width height).map .raised).or (o.panic?.map .panicked)

variable {o width height}

theorem polarityFailure?_eq :
    (if o.polarity.mode = .auto then
      (o.binarize.refusal? width height).map PolarityError.binarize else none).map
        PageError.ofPolarity = o.polarityFailure? width height := by
  rw [polarityFailure?]
  split
  · rw [Option.map_map]
    rfl
  · rfl

theorem failure?_ne_furiganaFailed {orientation : Orientation} {e : RemovalError} :
    o.failure? width height ≠ some (.raised (.furiganaFailed orientation e)) := by
  simp [failure?, error?, prepareFailure?, polarityFailure?, scaleFailure?, sharpenFailure?,
    binarizeFailure?, Option.or_eq_some_iff]

end PageOptions

end Refusals

section Steps

variable {image : GrayImage} {page : Page} {width height : UInt32}

-- A picture with pixels has a border.
theorem Page.isSome_borderDarkness? (hw : page.width ≠ 0) (hh : page.height ≠ 0) :
    page.borderDarkness?.isSome := by
  have hguard : (guard (page.width ≠ 0 ∧ page.height ≠ 0) : Option Unit) = some () :=
    if_pos ⟨hw, hh⟩
  rw [borderDarkness?, hguard]
  simp [inkFractionOnLine?, line?, hw, hh]

-- What the merging of options with overrides makes sure of.
structure PageOptions.Valid (o : PageOptions) : Prop where
  scoreFraction : isShare o.binarize.scoreFraction
  factor        : o.scale.enabled → isPositive o.scale.factor
  magnification : o.furigana.mode ≠ .disabled → isPositive o.magnification

theorem PageOptions.valid_of_invalid? {o : PageOptions} (h : o.invalid? = none) : o.Valid := by
  rw [invalid?] at h
  have h : isShare o.polarity.darkBgThreshold ∧ ¬(o.scale.enabled ∧ !isPositive o.scale.factor) ∧
      isShare o.binarize.scoreFraction ∧
      ¬(o.furigana.mode ≠ .disabled ∧ !isPositive o.magnification) := by
    grind
  simp only [Bool.not_eq_true', not_and, Bool.not_eq_false] at h
  exact ⟨h.right.right.left, h.right.left, h.right.right.right⟩

theorem Config.valid_of_merge {c : Config} {overrides : Overrides} {o : PageOptions}
    (h : c.merge overrides = .ok o) : o.Valid := by
  rw [merge, PageOptions.validate] at h
  split at h
  case h_1 => nomatch h
  case h_2 hn =>
    cases h
    exact PageOptions.valid_of_invalid? hn

namespace GrayImage

theorem ends_thresholdMap {o : BinarizeOptions} (ho : isShare o.scoreFraction)
    (hi : image.HasSize width height) :
    Ends (o.refusal? width height) (fun _ => True) (image.thresholdMap o) := by
  obtain ⟨rfl, rfl⟩ := hi
  have hs : 0 ≤ o.scoreFraction ∧ o.scoreFraction ≤ 1 := by simpa [isShare] using ho
  rw [thresholdMap, BinarizeOptions.refusal?]
  by_cases he : image.width = 0 ∨ image.height = 0
  case pos =>
    rw [if_pos he, if_pos he]
    rfl
  case neg =>
    rw [if_neg he, if_neg he]
    by_cases ht : o.tileWidth < minTileSize ∨ o.tileHeight < minTileSize
    case pos =>
      rw [if_pos ht, if_pos ht]
      rfl
    case neg =>
      rw [if_neg ht, if_neg ht, if_neg (by simpa using hs)]
      simp only
      split
      · exact .ok trivial
      · exact .ok trivial

theorem ends_binarize {o : BinarizeOptions} (ho : isShare o.scoreFraction)
    (hi : image.HasSize width height) :
    Ends (o.refusal? width height) (Grid.HasSize width height) (image.binarize o) :=
  (ends_thresholdMap ho hi).bind_total fun _ _ => .ok hi

theorem ends_shouldInvert {p : PolarityOptions} {o : BinarizeOptions}
    (ho : isShare o.scoreFraction) (hi : image.HasSize width height) :
    Ends (if p.mode = .auto then (o.refusal? width height).map .binarize else none)
      (fun _ => True) (image.shouldInvert p o) := by
  rw [shouldInvert]
  cases p.mode
  case no   => exact .ok trivial
  case yes  => exact .ok trivial
  case auto =>
    have hb := ends_binarize ho hi
    rw [if_pos rfl]
    cases hr : o.refusal? width height
    case some e =>
      rw [hr] at hb
      rw [hb.eq_error]
      rfl
    case none =>
      rw [hr] at hb
      obtain ⟨page, hb, hw, hh⟩ := hb
      have hsize := BinarizeOptions.ne_zero_of_refusal? hr
      obtain ⟨darkness, hd⟩ := Option.isSome_iff_exists.mp <|
        Page.isSome_borderDarkness? (hw ▸ hsize.left) (hh ▸ hsize.right)
      simp only [hb, hd]
      exact .ok trivial

theorem ends_normalizePolarity {p : PolarityOptions} {o : BinarizeOptions}
    (ho : isShare o.scoreFraction) (hi : image.HasSize width height) :
    Ends (if p.mode = .auto then (o.refusal? width height).map .binarize else none)
      (fun r => r.1.HasSize width height) (image.normalizePolarity p o) :=
  (ends_shouldInvert ho hi).bind_total fun inverted _ => by
    cases inverted
    · exact .ok hi
    · exact .ok hi

theorem ends_scaledSize {o : ScaleOptions} {size : UInt32} :
    Ends (o.tooLarge? size) (· = max (o.scaled size).toUInt32 1) (scaledSize size o.factor) := by
  by_cases h : maxScaledSize.toFloat < o.scaled size
  case pos =>
    rw [ScaleOptions.tooLarge?, if_pos h]
    exact if_pos h
  case neg =>
    rw [ScaleOptions.tooLarge?, if_neg h]
    exact ⟨_, if_neg h, rfl⟩

theorem ends_scale {o : ScaleOptions} (ho : isPositive o.factor)
    (hi : image.HasSize width height) :
    Ends (o.refusal? width height)
      (Grid.HasSize (max (o.scaled width).toUInt32 1) (max (o.scaled height).toUInt32 1))
      (image.scale o.factor) := by
  obtain ⟨rfl, rfl⟩ := hi
  have hf : o.factor.isFinite ∧ 0 < o.factor := by simpa [isPositive] using ho
  rw [scale, if_neg (by simpa using hf), ScaleOptions.refusal?]
  by_cases he : image.width = 0 ∨ image.height = 0
  case pos =>
    rw [if_pos he, if_pos he]
    rfl
  case neg =>
    rw [if_neg he, if_neg he]
    refine ends_scaledSize.bind fun width hw => ends_scaledSize.bind_total fun height hh => ?_
    subst hw hh
    split
    case isTrue hsame => exact .ok ⟨hsame.left.symm, hsame.right.symm⟩
    case isFalse      => exact .ok ⟨rfl, rfl⟩

theorem ends_scaleIfEnabled {o : PageOptions} (ho : o.scale.enabled → isPositive o.scale.factor)
    (hi : image.HasSize width height) :
    Ends (o.scaleFailure? width height)
      (Grid.HasSize (o.scale.size width) (o.scale.size height)) (image.scaleIfEnabled o.scale) := by
  rw [scaleIfEnabled, PageOptions.scaleFailure?]
  by_cases he : o.scale.enabled
  case pos =>
    simp only [he, if_true, ScaleOptions.size]
    exact (ends_scale (ho he) hi).mapError _
  case neg =>
    simp only [he, ScaleOptions.size]
    exact .ok hi

theorem ends_unsharpMask {o : UnsharpOptions} (hi : image.HasSize width height) :
    Ends o.refusal? (Grid.HasSize width height) (image.unsharpMask o.halfwidth o.fract) := by
  rw [unsharpMask, UnsharpOptions.refusal?]
  by_cases hf : o.fract.isFinite
  case neg => simp [hf, Ends]
  case pos =>
    rw [if_pos hf, if_neg (by simpa using hf)]
    simp only
    split
    · exact .ok hi
    · exact .ok hi

theorem ends_sharpenIfEnabled {o : PageOptions} (hi : image.HasSize width height) :
    Ends o.sharpenFailure? (Grid.HasSize width height) (image.sharpenIfEnabled o.unsharp) := by
  rw [sharpenIfEnabled, PageOptions.sharpenFailure?]
  by_cases he : o.unsharp.enabled
  case pos =>
    rw [if_pos he, if_pos he]
    exact (ends_unsharpMask hi).mapError _
  case neg =>
    rw [if_neg he, if_neg he]
    exact .ok hi

end GrayImage

theorem FuriganaMode.isSome_orientation? {mode : FuriganaMode} :
    mode.orientation?.isSome = (mode != .disabled) := by
  cases mode <;> rfl

theorem FuriganaSettings.reservable_toRemoval_iff {s : FuriganaSettings} {m : Float32} :
    SpanList.Reservable (s.toRemoval m).maxSpans.toNat ↔
      SpanList.Reservable s.maxSpans.toNat := by
  rw [toNat_maxSpans_toRemoval, SpanList.reservable_iff, SpanList.reservable_iff]
  omega

-- The magnification was checked, so the removal has no error to fail with.
theorem Page.ends_removeFuriganaIfEnabled {o : PageOptions} (hb : o.binarize.enabled)
    (ho : o.furigana.mode ≠ .disabled → isPositive o.magnification)
    (hp : page.HasSize width height) :
    Ends (o.panic?.map Failure.panicked)
      (fun r => r.1.HasSize width height ∧ r.2.isSome = (o.furigana.mode != .disabled))
      (page.removeFuriganaIfEnabled o) := by
  rw [removeFuriganaIfEnabled, PageOptions.panic?]
  have hmode := @FuriganaMode.isSome_orientation? o.furigana.mode
  cases horient : o.furigana.mode.orientation?
  case none =>
    rw [horient] at hmode
    have hd : o.furigana.mode = .disabled := by simpa using hmode
    rw [if_neg (by simp [hd])]
    exact .ok ⟨hp, hmode⟩
  case some orientation =>
    rw [horient] at hmode
    have hd : o.furigana.mode ≠ .disabled := by simpa using hmode.symm
    have hm : o.magnification.isFinite ∧ 0 < o.magnification := by
      simpa [isPositive] using ho hd
    by_cases hc : SpanList.Reservable o.furigana.maxSpans.toNat
    case pos =>
      obtain ⟨_, d, _, _, hr⟩ := exists_removeFurigana
        (o := o.furigana.toRemoval o.magnification) page orientation hm
        (FuriganaSettings.reservable_toRemoval_iff.mpr hc)
      rw [if_neg (by simp [hc])]
      simp only [hr]
      exact .ok ⟨hp, hmode⟩
    case neg =>
      have ⟨_, ht⟩ := (o.furigana.toRemoval o.magnification).exists_thresholds hm
      rw [if_pos ⟨hb, hd, hc⟩]
      simp only [removeFurigana_of_not_reservable page ht
        (mt FuriganaSettings.reservable_toRemoval_iff.mp hc)]
      rfl

end Steps

section Pipeline

variable {c : Config} {overrides : Overrides} {o : PageOptions}

-- What comes of a picture of this size.
structure PageOptions.Produces (o : PageOptions) (width height : UInt32) (result : PageResult) :
    Prop where
  width    : result.output.width = o.scale.size width
  height   : result.output.height = o.scale.size height
  isBinary : result.output.isBinary = o.binarize.enabled
  furigana : result.furigana.isSome = (o.binarize.enabled && o.furigana.mode != .disabled)

theorem PageOptions.Valid.ends_prepare (h : o.Valid) (picture : Picture) :
    Ends (o.prepareFailure? picture.width picture.height)
      (fun r => r.1.HasSize (o.scale.size picture.width) (o.scale.size picture.height))
      (picture.prepare o) := by
  have hgray : picture.toGray.HasSize picture.width picture.height := ⟨rfl, rfl⟩
  rw [Picture.prepare, PageOptions.prepareFailure?, Option.or_assoc]
  have hpolarity := (GrayImage.ends_normalizePolarity (p := o.polarity) h.scoreFraction
    hgray).mapError PageError.ofPolarity
  refine (PageOptions.polarityFailure?_eq ▸ hpolarity).bind fun _ hgray => ?_
  refine (GrayImage.ends_scaleIfEnabled h.factor hgray).bind fun _ hgray => ?_
  exact (GrayImage.ends_sharpenIfEnabled hgray).bind_total fun _ hgray => .ok hgray

theorem PageOptions.Valid.ends_processPicture (h : o.Valid) (picture : Picture) :
    Ends (o.failure? picture.width picture.height) (o.Produces picture.width picture.height)
      (processPicture o picture) := by
  rw [processPicture, PageOptions.failure?, PageOptions.error?, Option.map_or, Option.or_assoc]
  refine ((h.ends_prepare picture).mapError Failure.raised).bind ?_
  rintro ⟨gray, negated⟩ hgray
  simp only [PageOptions.binarizeFailure?]
  by_cases hb : o.binarize.enabled
  case neg =>
    rw [if_neg hb, if_neg hb, PageOptions.panic?, if_neg (by simp [hb])]
    exact .ok ⟨hgray.left, hgray.right, (Bool.eq_false_iff.mpr hb).symm, by simp [hb]⟩
  case pos =>
    rw [if_pos hb, if_pos hb, Option.map_map]
    refine ((GrayImage.ends_binarize h.scoreFraction hgray).mapError _).bind fun _ hp => ?_
    refine (Page.ends_removeFuriganaIfEnabled hb h.magnification hp).bind_total
      fun _ ⟨hp, hreport⟩ => ?_
    exact .ok ⟨hp.left, hp.right, hb.symm, by simpa [hb] using hreport⟩

theorem PageOptions.Valid.processPicture_eq_error (h : o.Valid) {picture : Picture}
    {e : Failure PageError} (hf : o.failure? picture.width picture.height = some e) :
    processPicture o picture = .error e := by
  have hp := h.ends_processPicture picture
  rw [hf] at hp
  exact hp.eq_error

theorem PageOptions.Valid.failure?_eq (h : o.Valid) {picture : Picture} {e : Failure PageError}
    (hp : processPicture o picture = .error e) :
    o.failure? picture.width picture.height = some e := by
  have hends := h.ends_processPicture picture
  cases hf : o.failure? picture.width picture.height
  case none =>
    rw [hf] at hends
    obtain ⟨_, hr, _⟩ := hends
    cases hp.symm.trans hr
  case some e' =>
    rw [hf] at hends
    cases hp.symm.trans hends.eq_error
    rfl

-- Options that were merged are valid, so the size of the picture and the switches decide.
theorem processPicture_of_merge (h : c.merge overrides = .ok o) (picture : Picture) :
    Ends (o.failure? picture.width picture.height) (o.Produces picture.width picture.height)
        (processPicture o picture) ∧
      ∀ orientation e, processPicture o picture ≠ .error (.raised (.furiganaFailed orientation e))
    := by
  have hv := Config.valid_of_merge h
  refine ⟨hv.ends_processPicture picture, fun orientation e he => ?_⟩
  exact o.failure?_ne_furiganaFailed (hv.failure?_eq he)

def verticalOptions : PageOptions where
  furigana := { mode := .vertical }

def whitePicture : Picture :=
  .ofGray (.replicate 3 2 255)

theorem processPicture_of_merge_whitePicture :
    ∃ result, processPicture verticalOptions whitePicture = .ok result ∧
      result.output.width = 11 ∧ result.output.height = 7 ∧ result.output.isBinary ∧
      result.furigana.isSome := by
  have hm : ({} : Config).merge { furigana := some .vertical } = .ok verticalOptions := by
    decide +kernel
  have hf : verticalOptions.failure? whitePicture.width whitePicture.height = none := by
    decide +kernel
  have hwidth : verticalOptions.scale.size whitePicture.width = 11 := by decide +kernel
  have hheight : verticalOptions.scale.size whitePicture.height = 7 := by decide +kernel
  have h := processPicture_of_merge hm whitePicture
  rw [hf] at h
  obtain ⟨⟨result, hr, hp⟩, _⟩ := h
  exact ⟨result, hr, hp.width.trans hwidth, hp.height.trans hheight, hp.isBinary, hp.furigana⟩

-- There can not be room for so many spans.
def crowdedSettings : FuriganaSettings where
  mode     := .vertical
  maxSpans := 0x1000000000000000

def crowdedConfig : Config where
  furigana := crowdedSettings

def crowdedOptions : PageOptions where
  furigana := crowdedSettings

-- None of the four errors applies, and still no page comes out.
theorem processPicture_overflowing_capacity :
    crowdedConfig.merge {} = .ok crowdedOptions ∧
      crowdedOptions.error? whitePicture.width whitePicture.height = none ∧
      processPicture crowdedOptions whitePicture = .error (.panicked .capacityOverflow) := by
  have hm : crowdedConfig.merge {} = .ok crowdedOptions := by decide +kernel
  have he : crowdedOptions.error? whitePicture.width whitePicture.height = none := by
    decide +kernel
  have hf : crowdedOptions.failure? whitePicture.width whitePicture.height =
      some (.panicked .capacityOverflow) := by decide +kernel
  exact ⟨hm, he, (Config.valid_of_merge hm).processPicture_eq_error hf⟩

end Pipeline

end PagePrep
