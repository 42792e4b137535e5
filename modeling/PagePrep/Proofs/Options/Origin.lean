import PagePrep.Options.Read

-- Where an option has its value from: from what is given, or else from what a configuration says,
-- or else from the defaults.

namespace PagePrep

namespace Decode

-- The parts of a configuration with their fields, each in the order in which an array has them.
def configParts : List (String × List String) :=
  [("polarity", ["mode", "dark_bg_threshold"]),
    ("scale", ["enabled", "factor"]),
    ("unsharp", ["enabled", "halfwidth", "fract"]),
    ("binarize",
      ["enabled", "tile_width", "tile_height", "smooth_x", "smooth_y", "score_fraction"]),
    ("furigana",
      ["mode", "min_fg_pixels_per_line", "min_span_width", "max_spans", "keep_ratio",
        "magnification"]),
    ("runtime", ["threads"])]

def fieldsOf (part : String) : List String :=
  (configParts.lookup part).getD []

-- What a part of a configuration holds for a field, if it has the field.
def inPart? (part name : String) (v : Value) : Option Value :=
  (fields? .toml (fieldsOf part) v).bind fun fields => fields name

-- What a configuration holds for a field, if there is a configuration and it has the field.
def setting? (document : Option Value) (part name : String) : Option Value := do
  let parts ← fields? .toml (configParts.map Prod.fst) (← document)
  inPart? part name (← parts part)

variable {α : Type} {default a : α} {decode : Value → Option α} {v : Value}
  {parts : String → Option Value} {part : String}

theorem setting?_eq (h : fields? .toml (configParts.map Prod.fst) v = some parts)
    (part name : String) :
    setting? (some v) part name = (parts part).bind (inPart? part name) := by
  simp [setting?, h]

-- A part that a configuration does not have is like one without any fields.
theorem exists_part (h : field? parts part default decode = some a)
    (hd : decode (.table []) = some default) :
    ∃ v, decode v = some a ∧
      ∀ name, (parts part).bind (inPart? part name) = inPart? part name v := by
  rw [field?] at h
  split at h
  case h_1 hn   => exact ⟨.table [], hd.trans h, fun name => by rw [hn]; rfl⟩
  case h_2 v hv => exact ⟨v, h, fun name => by rw [hv]; rfl⟩

end Decode

section Origin

variable {α : Type}

inductive Origin (given : Option α) (set : Option Value) (decode : Value → Option α)
    (default : α) : α → Prop where
  | given {a : α} (hg : given = some a) : Origin given set decode default a
  | document {v : Value} {a : α} (hg : given = none) (hs : set = some v) (hd : decode v = some a) :
    Origin given set decode default a
  | default (hg : given = none) (hs : set = none) : Origin given set decode default default

namespace Origin

variable {given : Option α} {set : Option Value} {decode : Value → Option α} {default a b : α}

theorem unique (ha : Origin given set decode default a) (hb : Origin given set decode default b) :
    a = b := by
  cases ha <;> cases hb <;> simp_all

theorem override (h : Origin none set decode default a) (given : Option α) :
    Origin given set decode default (given.getD a) := by
  cases given
  case some => exact .given rfl
  case none => exact h

-- Where there may be no value at all, a value that is given is one.
theorem override_or {decode : Value → Option (Option α)} {default a : Option α}
    (h : Origin none set decode default a) (given : Option α) :
    Origin (given.map some) set decode default (given.or a) := by
  cases given
  case some => exact .given rfl
  case none => exact h

theorem of_field? {v : Value} {part name : String} {fields : String → Option Value}
    (hf : Decode.fields? .toml (Decode.fieldsOf part) v = some fields)
    (h : Decode.field? fields name default decode = some a) :
    Origin none (Decode.inPart? part name v) decode default a := by
  rw [Decode.field?] at h
  rw [Decode.inPart?, hf]
  split at h
  case h_1 hn   => cases h; exact .default rfl hn
  case h_2 w hw => exact .document rfl hw h

end Origin

end Origin

namespace Decode

section Parts

variable {v : Value}

theorem origin_polarity {o : PolarityOptions} (h : polarity? .toml v = some o) :
    Origin none (inPart? "polarity" "mode" v) (choice? .toml NegateMode.names) .auto o.mode ∧
      Origin none (inPart? "polarity" "dark_bg_threshold" v) float32? 0.5 o.darkBgThreshold := by
  simp only [polarity?, Option.bind_eq_bind, Option.bind_eq_some_iff, Option.pure_def,
    Option.some.injEq] at h
  obtain ⟨fields, hf, _, hmode, _, hthreshold, rfl⟩ := h
  exact ⟨.of_field? hf hmode, .of_field? hf hthreshold⟩

theorem origin_scale {o : ScaleOptions} (h : scale? .toml v = some o) :
    Origin none (inPart? "scale" "enabled" v) bool? true o.enabled ∧
      Origin none (inPart? "scale" "factor" v) float32? 3.5 o.factor := by
  simp only [scale?, Option.bind_eq_bind, Option.bind_eq_some_iff, Option.pure_def,
    Option.some.injEq] at h
  obtain ⟨fields, hf, _, henabled, _, hfactor, rfl⟩ := h
  exact ⟨.of_field? hf henabled, .of_field? hf hfactor⟩

theorem origin_unsharp {o : UnsharpOptions} (h : unsharp? .toml v = some o) :
    Origin none (inPart? "unsharp" "enabled" v) bool? true o.enabled ∧
      Origin none (inPart? "unsharp" "halfwidth" v) uint32? 5 o.halfwidth ∧
      Origin none (inPart? "unsharp" "fract" v) float32? 2.5 o.fract := by
  simp only [unsharp?, Option.bind_eq_bind, Option.bind_eq_some_iff, Option.pure_def,
    Option.some.injEq] at h
  obtain ⟨fields, hf, _, henabled, _, hhalfwidth, _, hfract, rfl⟩ := h
  exact ⟨.of_field? hf henabled, .of_field? hf hhalfwidth, .of_field? hf hfract⟩

theorem origin_binarize {o : BinarizeOptions} (h : binarize? .toml v = some o) :
    Origin none (inPart? "binarize" "enabled" v) bool? true o.enabled ∧
      Origin none (inPart? "binarize" "tile_width" v) uint32? 2000 o.tileWidth ∧
      Origin none (inPart? "binarize" "tile_height" v) uint32? 2000 o.tileHeight ∧
      Origin none (inPart? "binarize" "smooth_x" v) uint32? 0 o.smoothX ∧
      Origin none (inPart? "binarize" "smooth_y" v) uint32? 0 o.smoothY ∧
      Origin none (inPart? "binarize" "score_fraction" v) float32? 0 o.scoreFraction := by
  simp only [binarize?, Option.bind_eq_bind, Option.bind_eq_some_iff, Option.pure_def,
    Option.some.injEq] at h
  obtain ⟨fields, hf, _, henabled, _, hwidth, _, hheight, _, hx, _, hy, _, hfraction, rfl⟩ := h
  exact ⟨.of_field? hf henabled, .of_field? hf hwidth, .of_field? hf hheight, .of_field? hf hx,
    .of_field? hf hy, .of_field? hf hfraction⟩

theorem origin_furigana {o : FuriganaSettings} (h : furigana? .toml v = some o) :
    Origin none (inPart? "furigana" "mode" v) (choice? .toml FuriganaMode.names) .disabled o.mode ∧
      Origin none (inPart? "furigana" "min_fg_pixels_per_line" v) float32? 2 o.minInk ∧
      Origin none (inPart? "furigana" "min_span_width" v) float32? 5 o.minWidth ∧
      Origin none (inPart? "furigana" "max_spans" v) uint64? 50 o.maxSpans ∧
      Origin none (inPart? "furigana" "keep_ratio" v) float? 0.9 o.keepRatio ∧
      Origin none (inPart? "furigana" "magnification" v) (optional? float32?) none
        o.magnification := by
  simp only [furigana?, Option.bind_eq_bind, Option.bind_eq_some_iff, Option.pure_def,
    Option.some.injEq] at h
  obtain ⟨fields, hf, _, hmode, _, hink, _, hwidth, _, hspans, _, hratio, _, hmagnification,
    rfl⟩ := h
  exact ⟨.of_field? hf hmode, .of_field? hf hink, .of_field? hf hwidth, .of_field? hf hspans,
    .of_field? hf hratio, .of_field? hf hmagnification⟩

theorem origin_runtime {o : RuntimeOptions} (h : runtime? .toml v = some o) :
    Origin none (inPart? "runtime" "threads" v) (optional? uint64?) none o.threads := by
  simp only [runtime?, Option.bind_eq_bind, Option.bind_eq_some_iff, Option.pure_def,
    Option.some.injEq] at h
  obtain ⟨fields, hf, _, hthreads, rfl⟩ := h
  exact .of_field? hf hthreads

end Parts

end Decode

end PagePrep
