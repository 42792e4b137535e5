import Mathlib
import PagePrep.Options.Read
import PagePrep.Options.Write
import PagePrep.Proofs.Number.Widen
import PagePrep.Proofs.Options.Decode
import PagePrep.Proofs.Options.Origin
import PagePrep.Proofs.Text.Toml.Document
import PagePrep.Proofs.Text.Toml.Integers

-- What a configuration file gives for a field is read as the field, whatever else is in the file.
-- All other fields have their defaults.

namespace PagePrep

namespace Toml

section Scalars

variable {α : Type} {decode : Value → Option α} {default a : α} {scalar : Scalar} {text : String}
  {v : Value}

-- A value is written so that it gives a result, or it is left out and the result is the default.
inductive Gives (decode : Value → Option α) (default : α) : Scalar → α → Prop where
  | absent : Gives decode default .none default
  | written {scalar : Scalar} {text : String} {v : Value} {a : α}
      (ht : scalar.toToml? = some text) (hr : ReadsAs text v) (hd : decode v = some a) :
    Gives decode default scalar a

theorem Gives.readable (h : Gives decode default scalar a) : Readable scalar := by
  cases h
  case absent           => exact .inl rfl
  case written hr ht hd => exact .inr ⟨_, _, ht, hr⟩

theorem gives_bool (default b : Bool) : Gives Decode.bool? default (.bool b) b :=
  .written rfl (readsAs_bool b) rfl

theorem gives_nat {n : Nat} (h : n < Value.signedBound) (hd : decode (.int n) = some a) :
    Gives decode default (.nat n) a :=
  .written (if_pos h) (readsAs_nat h) hd

theorem gives_uint32 (default n : UInt32) :
    Gives Decode.uint32? default (.nat n.toNat) n :=
  gives_nat (Nat.lt_trans n.toNat_lt (by decide)) (Decode.uint32?_int n)

theorem gives_uint64 {n : UInt64} (default : UInt64) (h : n.toNat < Value.signedBound) :
    Gives Decode.uint64? default (.nat n.toNat) n :=
  gives_nat h (Decode.uint64?_int n)

theorem gives_double {x : Float} (default : Float) (h : ¬x.isNaN) :
    Gives Decode.float? default (.double x) x :=
  .written rfl (readsAs_double h) rfl

-- The digits are those of the number in the wider format, in which it is read first.
theorem gives_single {x : Float32} (default : Float32) (h : ¬x.isNaN) :
    Gives Decode.float32? default (.single x) x :=
  .written rfl (readsAs_double (not_isNaN_widen h)) (congrArg some (narrow_widen h))

theorem gives_choice {names : List (String × α)} {name : String} (default : α)
    (hb : ∀ c ∈ name.toList, isBareKeyChar c) (h : names.lookup name = some a) :
    Gives (Decode.choice? .toml names) default (.text name) a :=
  .written rfl (readsAs_quote hb) h

theorem Gives.optional (h : Gives decode default scalar a) (hs : scalar ≠ .none)
    (hn : decode .null = none) : Gives (Decode.optional? decode) none scalar (some a) := by
  cases h
  case absent           => exact absurd rfl hs
  case written hr ht hd => exact .written ht hr (Decode.optional?_of_some hd hn)

theorem gives_magnification {magnification : Option Float32} (h : ∀ x ∈ magnification, ¬x.isNaN) :
    Gives (Decode.optional? Decode.float32?) none (magnification.elim .none .single)
      magnification := by
  cases magnification
  case none   => exact .absent
  case some x => exact (gives_single 0 (h x rfl)).optional Scalar.noConfusion rfl

theorem gives_threads {threads : Option UInt64} (h : ∀ n ∈ threads, n.toNat < Value.signedBound) :
    Gives (Decode.optional? Decode.uint64?) none (threadsScalar threads) threads := by
  cases threads
  case none   => exact .absent
  case some n => exact (gives_uint64 0 (h n rfl)).optional Scalar.noConfusion rfl

-- What stands in a file for a value. Nothing does if the value is left out.
def StandsFor (scalar : Scalar) : Option Value → Prop
  | .none   => scalar.toToml? = none
  | .some v => ∃ text, scalar.toToml? = some text ∧ ReadsAs text v

theorem field?_of_gives {fields : String → Option Value} {name : String} {p : Prop} [Decidable p]
    (h : Gives decode default scalar a)
    (hv : if p then StandsFor scalar (fields name) else fields name = none) :
    Decode.field? fields name default decode = some (if p then a else default) := by
  rw [Decode.field?]
  by_cases hp : p
  case neg =>
    rw [if_neg hp] at hv ⊢
    rw [hv]
  case pos =>
    rw [if_pos hp] at hv ⊢
    cases hw : fields name
    case none =>
      rw [hw] at hv
      cases h
      case absent           => rfl
      case written hr ht hd => cases ht.symm.trans hv
    case some w =>
      rw [hw] at hv
      obtain ⟨text, hs, hreads⟩ := hv
      cases h
      case absent => cases hs
      case written hr ht hd =>
        cases ht.symm.trans hs
        exact hr.unique hreads ▸ hd

end Scalars

end Toml

namespace Config

-- The values of all fields, as they are written.
def scalar (c : Config) (part name : String) : Scalar :=
  ((c.toDocument.sections.lookup part).bind (·.lookup name)).getD .none

def pick {α : Type} (S : Finset (String × String)) (part name : String) (a default : α) : α :=
  if (part, name) ∈ S then a else default

theorem pick_of_mem {α : Type} {S : Finset (String × String)} {part name : String} {a default : α}
    (h : (part, name) ∈ S) : pick S part name a default = a :=
  if_pos h

-- The fields in `S`, and otherwise the defaults.
def only (c : Config) (S : Finset (String × String)) : Config :=
  let d : Config := {}
  { polarity := {
      mode            := pick S "polarity" "mode" c.polarity.mode d.polarity.mode
      darkBgThreshold :=
        pick S "polarity" "dark_bg_threshold" c.polarity.darkBgThreshold d.polarity.darkBgThreshold
    }
    scale := {
      enabled := pick S "scale" "enabled" c.scale.enabled d.scale.enabled
      factor  := pick S "scale" "factor" c.scale.factor d.scale.factor
    }
    unsharp := {
      enabled   := pick S "unsharp" "enabled" c.unsharp.enabled d.unsharp.enabled
      halfwidth := pick S "unsharp" "halfwidth" c.unsharp.halfwidth d.unsharp.halfwidth
      fract     := pick S "unsharp" "fract" c.unsharp.fract d.unsharp.fract
    }
    binarize := {
      enabled       := pick S "binarize" "enabled" c.binarize.enabled d.binarize.enabled
      tileWidth     := pick S "binarize" "tile_width" c.binarize.tileWidth d.binarize.tileWidth
      tileHeight    := pick S "binarize" "tile_height" c.binarize.tileHeight d.binarize.tileHeight
      smoothX       := pick S "binarize" "smooth_x" c.binarize.smoothX d.binarize.smoothX
      smoothY       := pick S "binarize" "smooth_y" c.binarize.smoothY d.binarize.smoothY
      scoreFraction :=
        pick S "binarize" "score_fraction" c.binarize.scoreFraction d.binarize.scoreFraction
    }
    furigana := {
      mode      := pick S "furigana" "mode" c.furigana.mode d.furigana.mode
      minInk    := pick S "furigana" "min_fg_pixels_per_line" c.furigana.minInk d.furigana.minInk
      minWidth  := pick S "furigana" "min_span_width" c.furigana.minWidth d.furigana.minWidth
      maxSpans  := pick S "furigana" "max_spans" c.furigana.maxSpans d.furigana.maxSpans
      keepRatio := pick S "furigana" "keep_ratio" c.furigana.keepRatio d.furigana.keepRatio
      magnification :=
        pick S "furigana" "magnification" c.furigana.magnification d.furigana.magnification
    }
    runtime := {
      threads := pick S "runtime" "threads" c.runtime.threads d.runtime.threads
    } }

-- All fields there are.
def fields : Finset (String × String) :=
  (Decode.configParts.flatMap fun (part, names) => names.map (part, ·)).toFinset

theorem mem_parts {part name : String} (h : (part, name) ∈ fields) :
    part ∈ Decode.configParts.map Prod.fst := by
  obtain ⟨⟨_, names⟩, hp, hn⟩ := List.mem_flatMap.mp (List.mem_toFinset.mp h)
  obtain ⟨_, -, he⟩ := List.mem_map.mp hn
  cases he
  exact List.mem_map_of_mem hp

end Config

namespace Toml

section Tables

-- A part that is missing is as good as one without settings.
def partEntries (entries : List (String × Value)) (part : String) : List (String × Value) :=
  match Value.get? entries part with
  | some (.table sub) => sub
  | _                 => []

-- A table that gives just the fields of a configuration that are in `S`. It may have more keys and
-- parts, which are no fields of a configuration.
structure Holds (entries : List (String × Value)) (c : Config) (S : Finset (String × String)) :
    Prop where
  parts    : ∀ part ∈ Decode.configParts.map Prod.fst, ∀ v ∈ Value.get? entries part,
    ∃ sub, v = .table sub
  settings : ∀ part name, (part, name) ∈ Config.fields →
    if (part, name) ∈ S then
      StandsFor (c.scalar part name) (Value.get? (partEntries entries part) name)
    else
      Value.get? (partEntries entries part) name = none

-- A text of sections that gives just these fields, each as it is written.
structure Sheet.Holds (s : Sheet) (c : Config) (S : Finset (String × String)) : Prop where
  others   : ∀ part ∈ Decode.configParts.map Prod.fst, part ∉ s.others.map Setting.key
  settings : ∀ part name, (part, name) ∈ Config.fields →
    (s.setting? part name).map Setting.text =
      if (part, name) ∈ S then (c.scalar part name).toToml? else none

variable {entries : List (String × Value)} {s : Sheet} {c : Config}
  {S : Finset (String × String)} {part : String}

theorem Sheet.partEntries_entries (h : part ∉ s.others.map Setting.key) :
    partEntries s.entries part = (s.settingsOf part).map Setting.entry := by
  rw [partEntries, get?_entries h, settingsOf]
  cases s.part? part <;> rfl

theorem Sheet.Holds.holds_entries (h : s.Holds c S) : Toml.Holds s.entries c S := by
  constructor
  case parts =>
    intro part hp v hv
    rw [get?_entries (h.others part hp)] at hv
    obtain ⟨p, -, rfl⟩ := Option.map_eq_some_iff.mp hv
    exact ⟨_, rfl⟩
  case settings =>
    intro part name hf
    have hs := h.settings part name hf
    rw [partEntries_entries (h.others part (Config.mem_parts hf)),
      get?_settings (s.nodup_settingsOf part)]
    change if _ then StandsFor _ ((s.setting? part name).map Setting.value) else
      (s.setting? part name).map Setting.value = none
    split at hs
    case isFalse hn =>
      rw [if_neg hn, Option.map_eq_none_iff.mp hs]
      rfl
    case isTrue hn =>
      rw [if_pos hn]
      cases hsetting : s.setting? part name
      case none         => exact (hsetting ▸ hs).symm
      case some setting => exact ⟨setting.text, (hsetting ▸ hs).symm, setting.reads⟩

theorem Holds.field? {α : Type} {decode : Value → Option α} {default a : α} {name : String}
    (h : Holds entries c S) (hf : (part, name) ∈ Config.fields)
    (hg : Gives decode default (c.scalar part name) a) :
    Decode.field? (Value.get? (partEntries entries part)) name default decode =
      some (Config.pick S part name a default) :=
  field?_of_gives hg (h.settings part name hf)

theorem Holds.part? {α : Type} {decode : Value → Option α} {default a : α}
    (h : Holds entries c S) (hp : part ∈ Decode.configParts.map Prod.fst)
    (hd : decode (.table []) = some default)
    (ha : decode (.table (partEntries entries part)) = some a) :
    Decode.field? (Value.get? entries) part default decode = some a := by
  rw [partEntries] at ha
  rw [Decode.field?]
  cases hv : Value.get? entries part
  case none =>
    rw [hv] at ha
    exact hd.symm.trans ha
  case some v =>
    obtain ⟨sub, rfl⟩ := h.parts part hp v hv
    rw [hv] at ha
    exact ha

end Tables

section Parts

variable {entries : List (String × Value)} {c : Config} {S : Finset (String × String)}

theorem isBareKeyChar_negate (mode : NegateMode) : ∀ c ∈ mode.name.toList, isBareKeyChar c := by
  cases mode <;> simp [NegateMode.name, isBareKeyChar]

theorem isBareKeyChar_furigana (mode : FuriganaMode) :
    ∀ c ∈ mode.name.toList, isBareKeyChar c := by
  cases mode <;> simp [FuriganaMode.name, isBareKeyChar]

theorem polarity?_of_holds (h : Holds entries c S) (hx : ¬c.polarity.darkBgThreshold.isNaN) :
    Decode.polarity? .toml (.table (partEntries entries "polarity")) =
      some (c.only S).polarity := by
  simp only [Decode.polarity?, Option.bind_eq_bind, Option.bind_eq_some_iff, Option.pure_def,
    Option.some.injEq]
  exact ⟨_, rfl,
    _, h.field? (by decide +kernel)
      (gives_choice _ (isBareKeyChar_negate _) (NegateMode.lookup_name _)),
    _, h.field? (by decide +kernel) (gives_single _ hx), rfl⟩

theorem scale?_of_holds (h : Holds entries c S) (hx : ¬c.scale.factor.isNaN) :
    Decode.scale? .toml (.table (partEntries entries "scale")) = some (c.only S).scale := by
  simp only [Decode.scale?, Option.bind_eq_bind, Option.bind_eq_some_iff, Option.pure_def,
    Option.some.injEq]
  exact ⟨_, rfl, _, h.field? (by decide +kernel) (gives_bool _ _),
    _, h.field? (by decide +kernel) (gives_single _ hx), rfl⟩

theorem unsharp?_of_holds (h : Holds entries c S) (hx : ¬c.unsharp.fract.isNaN) :
    Decode.unsharp? .toml (.table (partEntries entries "unsharp")) = some (c.only S).unsharp := by
  simp only [Decode.unsharp?, Option.bind_eq_bind, Option.bind_eq_some_iff, Option.pure_def,
    Option.some.injEq]
  exact ⟨_, rfl, _, h.field? (by decide +kernel) (gives_bool _ _),
    _, h.field? (by decide +kernel) (gives_uint32 _ _),
    _, h.field? (by decide +kernel) (gives_single _ hx), rfl⟩

theorem binarize?_of_holds (h : Holds entries c S) (hx : ¬c.binarize.scoreFraction.isNaN) :
    Decode.binarize? .toml (.table (partEntries entries "binarize")) =
      some (c.only S).binarize := by
  simp only [Decode.binarize?, Option.bind_eq_bind, Option.bind_eq_some_iff, Option.pure_def,
    Option.some.injEq]
  exact ⟨_, rfl, _, h.field? (by decide +kernel) (gives_bool _ _),
    _, h.field? (by decide +kernel) (gives_uint32 _ _),
    _, h.field? (by decide +kernel) (gives_uint32 _ _),
    _, h.field? (by decide +kernel) (gives_uint32 _ _),
    _, h.field? (by decide +kernel) (gives_uint32 _ _),
    _, h.field? (by decide +kernel) (gives_single _ hx), rfl⟩

theorem furigana?_of_holds (h : Holds entries c S) (hi : ¬c.furigana.minInk.isNaN)
    (hw : ¬c.furigana.minWidth.isNaN) (hs : c.furigana.maxSpans.toNat < Value.signedBound)
    (hk : ¬c.furigana.keepRatio.isNaN) (hm : ∀ x ∈ c.furigana.magnification, ¬x.isNaN) :
    Decode.furigana? .toml (.table (partEntries entries "furigana")) =
      some (c.only S).furigana := by
  simp only [Decode.furigana?, Option.bind_eq_bind, Option.bind_eq_some_iff, Option.pure_def,
    Option.some.injEq]
  exact ⟨_, rfl,
    _, h.field? (by decide +kernel)
      (gives_choice _ (isBareKeyChar_furigana _) (FuriganaMode.lookup_name _)),
    _, h.field? (by decide +kernel) (gives_single _ hi),
    _, h.field? (by decide +kernel) (gives_single _ hw),
    _, h.field? (by decide +kernel) (gives_uint64 _ hs),
    _, h.field? (by decide +kernel) (gives_double _ hk),
    _, h.field? (by decide +kernel) (gives_magnification hm), rfl⟩

theorem runtime?_of_holds (h : Holds entries c S)
    (ht : ∀ n ∈ c.runtime.threads, n.toNat < Value.signedBound) :
    Decode.runtime? .toml (.table (partEntries entries "runtime")) = some (c.only S).runtime := by
  simp only [Decode.runtime?, Option.bind_eq_bind, Option.bind_eq_some_iff, Option.pure_def,
    Option.some.injEq]
  exact ⟨_, rfl, _, h.field? (by decide +kernel) (gives_threads ht), rfl⟩

end Parts

end Toml

namespace Config

-- Whether the integers are ones of 64 bits with a sign.
def FitsSigned (c : Config) : Prop :=
  c.furigana.maxSpans.toNat < Value.signedBound ∧
    ∀ n ∈ c.runtime.threads, n.toNat < Value.signedBound

variable {c : Config} {S : Finset (String × String)}

theorem isNaNFree_iff : c.isNaNFree ↔
    (¬c.polarity.darkBgThreshold.isNaN ∧ ¬c.scale.factor.isNaN ∧ ¬c.unsharp.fract.isNaN ∧
      ¬c.binarize.scoreFraction.isNaN ∧ ¬c.furigana.minInk.isNaN ∧ ¬c.furigana.minWidth.isNaN) ∧
      ¬c.furigana.keepRatio.isNaN ∧ ∀ x ∈ c.furigana.magnification, ¬x.isNaN := by
  cases hm : c.furigana.magnification <;> simp [isNaNFree, hm, and_assoc]

theorem ofToml?_of_holds {text : String} {entries : List (String × Value)}
    (hc : c.isNaNFree) (hf : c.FitsSigned) (ht : Toml.parse? text = some (.table entries))
    (h : Toml.Holds entries c S) : ofToml? text = some (c.only S) := by
  obtain ⟨⟨hpolarity, hscale, hunsharp, hbinarize, hink, hwidth⟩, hratio, hmagnification⟩ :=
    isNaNFree_iff.mp hc
  rw [ofToml?, ht, Option.bind_some]
  simp only [Decode.config?, Option.bind_eq_bind, Option.bind_eq_some_iff, Option.pure_def,
    Option.some.injEq]
  exact ⟨_, rfl, _, h.part? (by decide +kernel) rfl (Toml.polarity?_of_holds h hpolarity),
    _, h.part? (by decide +kernel) rfl (Toml.scale?_of_holds h hscale),
    _, h.part? (by decide +kernel) rfl (Toml.unsharp?_of_holds h hunsharp),
    _, h.part? (by decide +kernel) rfl (Toml.binarize?_of_holds h hbinarize),
    _, h.part? (by decide +kernel) rfl
      (Toml.furigana?_of_holds h hink hwidth hf.left hratio hmagnification),
    _, h.part? (by decide +kernel) rfl (Toml.runtime?_of_holds h hf.right), rfl⟩

section Written

theorem isBare_configParts : ∀ part ∈ Decode.configParts,
    Toml.IsBare part.1 ∧ (∀ name ∈ part.2, Toml.IsBare name) ∧ part.2.Nodup := by
  simp [Decode.configParts, Toml.IsBare, Toml.isBareKeyChar]

-- What is written has the names that are read.
theorem names_toDocument (c : Config) :
    c.toDocument.sections.map (fun part => (part.1, part.2.map Prod.fst)) = Decode.configParts :=
  rfl

variable (hc : c.isNaNFree) (hf : c.FitsSigned)
include hc hf

theorem readable_toDocument :
    ∀ part ∈ c.toDocument.sections, ∀ field ∈ part.2, Toml.Readable field.2 := by
  obtain ⟨⟨hpolarity, hscale, hunsharp, hbinarize, hink, hwidth⟩, hratio, hmagnification⟩ :=
    isNaNFree_iff.mp hc
  simp only [toDocument, PolarityOptions.toFields, ScaleOptions.toFields, UnsharpOptions.toFields,
    BinarizeOptions.toFields, FuriganaSettings.toFields, RuntimeOptions.toFields,
    List.forall_mem_cons, List.not_mem_nil, IsEmpty.forall_iff, implies_true, and_true]
  open Toml in
  exact ⟨
    ⟨(gives_choice .auto (isBareKeyChar_negate _) (NegateMode.lookup_name _)).readable,
      (gives_single 0 hpolarity).readable⟩,
    ⟨(gives_bool true _).readable, (gives_single 0 hscale).readable⟩,
    ⟨(gives_bool true _).readable, (gives_uint32 0 _).readable, (gives_single 0 hunsharp).readable⟩,
    ⟨(gives_bool true _).readable, (gives_uint32 0 _).readable, (gives_uint32 0 _).readable,
      (gives_uint32 0 _).readable, (gives_uint32 0 _).readable,
      (gives_single 0 hbinarize).readable⟩,
    ⟨(gives_choice .disabled (isBareKeyChar_furigana _) (FuriganaMode.lookup_name _)).readable,
      (gives_single 0 hink).readable, (gives_single 0 hwidth).readable,
      (gives_uint64 0 hf.left).readable, (gives_double 0 hratio).readable,
      (gives_magnification hmagnification).readable⟩,
    (gives_threads hf.right).readable⟩

theorem writable_toDocument : ∀ part ∈ c.toDocument.sections, Toml.Writable part := by
  intro part hm
  have hp : (part.1, part.2.map Prod.fst) ∈ Decode.configParts :=
    names_toDocument c ▸ List.mem_map_of_mem hm
  obtain ⟨hname, hbare, hnodup⟩ := isBare_configParts _ hp
  exact ⟨hname, fun field h => hbare _ (List.mem_map_of_mem h),
    readable_toDocument hc hf part hm, hnodup⟩

-- The text that is written gives all fields.
theorem exists_sheet : ∃ s : Toml.Sheet, c.toToml? = some s.text ∧ s.Holds c fields := by
  have hn : (c.toDocument.sections.map Prod.fst).Nodup := by
    simp [toDocument]
  obtain ⟨s, ho, ht, hs⟩ := Toml.exists_sheet rfl hn (writable_toDocument hc hf)
  refine ⟨s, ht, fun _ _ => by simp [ho], fun part name h => ?_⟩
  rw [hs, if_pos h, scalar]
  cases (c.toDocument.sections.lookup part).bind (·.lookup name) <;> rfl

-- And so there is a text that gives just some of them.
theorem exists_sheet_only (S : Finset (String × String)) : ∃ s : Toml.Sheet, s.Holds c S := by
  obtain ⟨s, -, hs⟩ := exists_sheet hc hf
  refine ⟨s.only S, hs.others, fun part name h => ?_⟩
  rw [Toml.Sheet.setting?_only]
  split
  case isTrue  => rw [hs.settings part name h, if_pos h]
  case isFalse => rfl

omit hc hf in
theorem only_fields (c : Config) : c.only fields = c := by
  simp (disch := decide +kernel) only [only, pick_of_mem]

theorem ofToml?_toToml? : ∃ text, c.toToml? = some text ∧ ofToml? text = some c := by
  obtain ⟨s, ht, hs⟩ := exists_sheet hc hf
  have hread := ofToml?_of_holds hc hf s.parse?_text hs.holds_entries
  exact ⟨s.text, ht, hread.trans (congrArg some c.only_fields)⟩

end Written

end Config

namespace Toml

section Integers

variable {α : Type} {format : Format} {names : List String} {name : String} {v w : Value}
  {fields : String → Option Value} {decode : Value → Option α} {default a : α}

theorem fits_fields? (hv : Fits v) (hf : Decode.fields? format names v = some fields)
    (hw : fields name = some w) : Fits w := by
  cases hv <;> simp only [Decode.fields?, reduceCtorEq] at hf
  case table entries h =>
    split at hf
    case isTrue  => cases hf
    case isFalse =>
      cases hf
      obtain ⟨_, _, he, -⟩ := List.lookup_eq_some_iff.mp hw
      exact h (name, w) (List.mem_reverse.mp (he ▸ List.mem_append_right _ List.mem_cons_self))
  case array items h =>
    split at hf
    case isTrue => cases hf
    case isFalse =>
      cases hf
      obtain ⟨_, _, he, -⟩ := List.lookup_eq_some_iff.mp hw
      exact h w (List.of_mem_zip (he ▸ List.mem_append_right _ List.mem_cons_self)).right
  case moment =>
    cases hf
    cases hw

-- A field has its default or what a value gives that fits.
theorem default_or_fits (hv : Fits v) (hf : Decode.fields? format names v = some fields)
    (h : Decode.field? fields name default decode = some a) :
    a = default ∨ ∃ w, Fits w ∧ decode w = some a := by
  rw [Decode.field?] at h
  split at h
  case h_1      => exact .inl (Option.some.inj h).symm
  case h_2 w hw => exact .inr ⟨w, fits_fields? hv hf hw, h⟩

theorem toNat_lt_of_uint64? {n : UInt64} (hv : Fits v) (h : Decode.uint64? v = some n) :
    n.toNat < Value.signedBound := by
  obtain ⟨k, hk, rfl⟩ := Option.map_eq_some_iff.mp h
  cases hv <;> simp only [Decode.natBelow?, reduceCtorEq] at hk
  case int m hm =>
    split at hk
    case isFalse => cases hk
    case isTrue hb =>
      cases hk
      have hn : m.toNat < UInt64.size := by omega
      rw [UInt64.toNat_ofNat_of_lt' hn]
      omega

theorem maxSpans_lt {o : FuriganaSettings} (hv : Fits v) (h : Decode.furigana? .toml v = some o) :
    o.maxSpans.toNat < Value.signedBound := by
  simp only [Decode.furigana?, Option.bind_eq_bind, Option.bind_eq_some_iff, Option.pure_def,
    Option.some.injEq] at h
  obtain ⟨fields, hf, _, -, _, -, _, -, spans, hs, _, -, _, -, rfl⟩ := h
  obtain rfl | ⟨w, hw, hd⟩ := default_or_fits hv hf hs
  · exact (by decide : (50 : UInt64).toNat < Value.signedBound)
  · exact toNat_lt_of_uint64? hw hd

theorem threads_lt {o : RuntimeOptions} (hv : Fits v) (h : Decode.runtime? .toml v = some o) :
    ∀ n ∈ o.threads, n.toNat < Value.signedBound := by
  simp only [Decode.runtime?, Option.bind_eq_bind, Option.bind_eq_some_iff, Option.pure_def,
    Option.some.injEq] at h
  obtain ⟨fields, hf, threads, ht, rfl⟩ := h
  obtain rfl | ⟨w, hw, hd⟩ := default_or_fits hv hf ht
  · intro n hn
    cases hn
  · rintro n rfl
    rw [Decode.optional?.eq_def] at hd
    split at hd
    case h_1 => cases hd
    case h_2 =>
      obtain ⟨m, hm, he⟩ := Option.map_eq_some_iff.mp hd
      cases he
      exact toNat_lt_of_uint64? hw hm

end Integers

end Toml

namespace Config

theorem fitsSigned_of_ofToml? {c : Config} {text : String} (h : ofToml? text = some c) :
    c.FitsSigned := by
  obtain ⟨v, hv, h⟩ := Option.bind_eq_some_iff.mp h
  have hv := Toml.fits_parse? hv
  simp only [Decode.config?, Option.bind_eq_bind, Option.bind_eq_some_iff, Option.pure_def,
    Option.some.injEq] at h
  obtain ⟨fields, hf, _, -, _, -, _, -, _, -, furigana, hfurigana, runtime, hruntime, rfl⟩ := h
  constructor
  · obtain rfl | ⟨w, hw, hd⟩ := Toml.default_or_fits hv hf hfurigana
    · exact (by decide : ({} : FuriganaSettings).maxSpans.toNat < Value.signedBound)
    · exact Toml.maxSpans_lt hw hd
  · obtain rfl | ⟨w, hw, hd⟩ := Toml.default_or_fits hv hf hruntime
    · intro n hn
      cases hn
    · exact Toml.threads_lt hw hd

-- What a file gives for the fields is read as that, however it is laid out and whatever else is in
-- it. What was written is read back, and so is what was read.
theorem ofToml?_reads (c : Config) (hc : c.isNaNFree) :
    (c.FitsSigned →
      (∀ S, (∃ s : Toml.Sheet, s.Holds c S) ∧
        (∀ s : Toml.Sheet, s.Holds c S → ofToml? s.text = some (c.only S)) ∧
        ∀ text entries, Toml.parse? text = some (.table entries) → Toml.Holds entries c S →
          ofToml? text = some (c.only S)) ∧
      ∃ text, c.toToml? = some text ∧ ofToml? text = some c) ∧
    ∀ text, ofToml? text = some c → ∃ text', c.toToml? = some text' ∧ ofToml? text' = some c := by
  constructor
  case left =>
    intro hf
    refine ⟨fun S => ⟨exists_sheet_only hc hf S, fun s hs => ?_, fun _ _ => ofToml?_of_holds hc hf⟩,
      ofToml?_toToml? hc hf⟩
    exact ofToml?_of_holds hc hf s.parse?_text hs.holds_entries
  case right => exact fun _ h => ofToml?_toToml? hc (fitsSigned_of_ofToml? h)

-- A text that gives the number of threads and the scale, among what is no field.
def wideConfig : Config where
  scale   := { factor := 1.5 }
  runtime := { threads := some 4 }

theorem not_isNaN_wideFactor : ¬(1.5 : Float).isNaN := by
  decide +kernel

def notedSheet : Toml.Sheet where
  others := [⟨"title", Json.quote "page", .string "page", by simp [Toml.IsBare, Toml.isBareKeyChar],
    Toml.readsAs_quote (by simp [Toml.isBareKeyChar])⟩]
  parts  := [
    ⟨"runtime", [
        ⟨"threads", toString 4, .int 4, by simp [Toml.IsBare, Toml.isBareKeyChar],
          Toml.readsAs_nat (by decide)⟩,
        ⟨"quiet", "true", .bool true, by simp [Toml.IsBare, Toml.isBareKeyChar],
          Toml.readsAs_bool true⟩],
      by simp [Toml.IsBare, Toml.isBareKeyChar], by simp⟩,
    ⟨"notes", [], by simp [Toml.IsBare, Toml.isBareKeyChar], by simp⟩,
    ⟨"scale", [
        ⟨"factor", NumberStyle.toml.double 1.5, .float 1.5,
          by simp [Toml.IsBare, Toml.isBareKeyChar], Toml.readsAs_double not_isNaN_wideFactor⟩],
      by simp [Toml.IsBare, Toml.isBareKeyChar], by simp⟩]
  nodup  := by simp

def notedFields : Finset (String × String) :=
  {("scale", "factor"), ("runtime", "threads")}

theorem ofToml?_reads_notedSheet :
    wideConfig.isNaNFree ∧ wideConfig.FitsSigned ∧ notedSheet.Holds wideConfig notedFields ∧
      notedSheet.text = "title = \"page\"\n\n[runtime]\nthreads = 4\nquiet = true\n\n" ++
        "[notes]\n\n[scale]\nfactor = 1.5\n" ∧
      ofToml? notedSheet.text = some wideConfig := by
  have hc : wideConfig.isNaNFree := by decide +kernel
  have hf : wideConfig.FitsSigned := by
    refine ⟨by decide, ?_⟩
    rintro n hn
    cases hn
    decide
  have hs : ∀ field ∈ fields, (notedSheet.setting? field.1 field.2).map Toml.Setting.text =
      if field ∈ notedFields then (wideConfig.scalar field.1 field.2).toToml? else none := by
    decide +kernel
  have hh : notedSheet.Holds wideConfig notedFields :=
    ⟨by decide +kernel, fun part name => hs (part, name)⟩
  refine ⟨hc, hf, hh, by decide +kernel, ?_⟩
  obtain ⟨_, hread, _⟩ := ((ofToml?_reads wideConfig hc).left hf).left notedFields
  exact (hread notedSheet hh).trans (by decide +kernel)

end Config

end PagePrep
