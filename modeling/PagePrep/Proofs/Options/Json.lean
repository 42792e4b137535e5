import Mathlib
import PagePrep.Options.Read
import PagePrep.Options.Write
import PagePrep.Proofs.Number.Bits
import PagePrep.Proofs.Options.Decode
import PagePrep.Proofs.Text.Json

-- Options that are written in JSON are read back as they were. In which order they stand does not
-- matter.

namespace PagePrep

namespace Decode

section Order

variable {β : Type} {names : List String} {entries entries' : List (String × Value)}
  {name : String} {v : Value}

theorem lookup_eq_some_iff_mem (h : ((entries.map Prod.fst).filter (· ∈ names)).Nodup)
    (hn : name ∈ names) : entries.lookup name = some v ↔ (name, v) ∈ entries := by
  induction entries
  case nil => simp
  case cons entry entries ih =>
    obtain ⟨key, w⟩ := entry
    by_cases hk : name = key
    case pos =>
      subst hk
      simp only [List.map_cons, List.filter_cons, hn, decide_true, if_true, List.nodup_cons] at h
      have hrest : (name, v) ∉ entries := fun hm =>
        h.left (List.mem_filter.mpr ⟨List.mem_map_of_mem hm, decide_eq_true hn⟩)
      simp [hrest, eq_comm]
    case neg =>
      have hne : (name == key) = false := beq_false_of_ne hk
      have hrest := h.sublist ((List.sublist_cons_self _ _).filter _)
      rw [List.lookup, hne, ih hrest, List.mem_cons, Prod.mk.injEq]
      exact (or_iff_right fun h => hk h.left).symm

theorem get?_perm (hp : entries.Perm entries')
    (h : ((entries.map Prod.fst).filter (· ∈ names)).Nodup) (hn : name ∈ names) :
    Value.get? entries name = Value.get? entries' name := by
  have hnodup {other : List (String × Value)} (hp : entries.Perm other) :
      ((other.map Prod.fst).filter (· ∈ names)).Nodup :=
    ((hp.map _).filter _).nodup_iff.mp h
  have hreverse := entries.reverse_perm.symm
  have hreverse' := hp.trans entries'.reverse_perm.symm
  refine Option.ext fun v => ?_
  rw [Value.get?, Value.get?, lookup_eq_some_iff_mem (hnodup hreverse) hn,
    lookup_eq_some_iff_mem (hnodup hreverse') hn, List.mem_reverse, List.mem_reverse, hp.mem_iff]

theorem bind_fields?_perm {k : (String → Option Value) → Option β} (hp : entries.Perm entries')
    (hk : ∀ fields fields', (∀ name ∈ names, fields name = fields' name) → k fields = k fields') :
    (fields? .json names (.table entries)).bind k =
      (fields? .json names (.table entries')).bind k := by
  have hnodup := ((hp.map Prod.fst).filter (decide <| · ∈ names)).nodup_iff
  simp only [fields?, true_and, ←hnodup]
  split
  case isTrue    => rfl
  case isFalse h => exact hk _ _ fun name hn => get?_perm hp (Decidable.not_not.mp h) hn

-- The order of the parts does not matter, as none of them can be given twice.
theorem pageOptions?_perm (hp : entries.Perm entries') :
    pageOptions? .json (.table entries) = pageOptions? .json (.table entries') :=
  bind_fields?_perm hp fun _ _ h => by simp [field?, h]

end Order

end Decode

namespace Json

-- A text gives a result wherever it stands in a longer one.
def Gives {α : Type} (decode : Value → Option α) (text : String) (a : α) : Prop :=
  ∃ v, ReadsAs text v ∧ decode v = some a

-- The digits that are written for a number read back as the number. They tell it apart in the
-- shorter format, but are read in the wider one first.
def ReadsBack (x : Float32) : Prop :=
  (parse? (Scalar.single x).toJson).bind Decode.float32? = some x

instance (x : Float32) : Decidable (ReadsBack x) :=
  inferInstanceAs (Decidable (_ = _))

-- Rounded to the wider format, the digits of this number lie halfway between two numbers of the
-- shorter one.
example : ¬ReadsBack (.ofBits 0x15ae43fd) := by decide +kernel

section Scalars

variable {α : Type} {decode : Value → Option α} {text : String} {a : α}

theorem Gives.optional (h : Gives decode text a) (hn : decode .null = none) :
    Gives (Decode.optional? decode) text (some a) := by
  obtain ⟨v, hv, hd⟩ := h
  exact ⟨v, hv, Decode.optional?_of_some hd hn⟩

theorem gives_none : Gives (Decode.optional? decode) Scalar.none.toJson none :=
  ⟨.null, readsAs_null, rfl⟩

theorem gives_bool (b : Bool) : Gives Decode.bool? (Scalar.bool b).toJson b :=
  ⟨.bool b, readsAs_bool b, rfl⟩

theorem gives_choice {names : List (String × α)} {name : String} (h : names.lookup name = some a) :
    Gives (Decode.choice? .json names) (Scalar.text name).toJson a :=
  ⟨.string name, readsAs_quote name, h⟩

theorem readsAs_nat {n : Nat} (h : n < UInt64.size) : ReadsAs (Scalar.nat n).toJson (.int n) := by
  have hv : numeralValue? false (.ofNat n) = some (.int n) := by
    have hd : Scan.decimalValue (Numeral.ofNat n).whole = n := decimalValue_toDigits
    rw [numeralValue?, if_pos ⟨rfl, rfl⟩, hd]
    exact if_pos h
  exact readsAs_numeral hv (Numeral.chars_ofNat n).symm

theorem gives_uint32 (n : UInt32) : Gives Decode.uint32? (Scalar.nat n.toNat).toJson n :=
  ⟨.int n.toNat, readsAs_nat (Nat.lt_trans n.toNat_lt (by decide)), Decode.uint32?_int n⟩

theorem gives_uint64 (n : UInt64) : Gives Decode.uint64? (Scalar.nat n.toNat).toJson n :=
  ⟨.int n.toNat, readsAs_nat n.toNat_lt, Decode.uint64?_int n⟩

theorem numeralValue?_of_not_isWhole {n : Numeral} {negative : Bool} (h : ¬n.IsWhole) :
    numeralValue? negative n = float? (n.decimal negative) := by
  rw [numeralValue?, if_neg]
  simpa [Numeral.IsWhole] using h

theorem gives_double {x : Float} (h : x.isFinite) :
    Gives Decode.float? (Scalar.double x).toJson x := by
  obtain ⟨n, hn, hw, hm⟩ := @exists_numeral .double .jsonDouble _ Layout.sound_double rfl
    (double_isFinite_iff.mp h) (doubleParts x).1
  have hx : (n.decimal (doubleParts x).1).toFloat = x := by
    rw [Decimal.toFloat, hm]
    exact double_ofBits_parts x
  refine ⟨.float x, readsAs_numeral ?_ hn, rfl⟩
  rw [numeralValue?_of_not_isWhole hw, float?, hx, if_pos h]

theorem gives_single {x : Float32} (h : x.isFinite) (hr : ReadsBack x) :
    Gives Decode.float32? (Scalar.single x).toJson x := by
  obtain ⟨n, hn, -⟩ := @exists_numeral .single .jsonSingle _ Layout.sound_single rfl
    (single_isFinite_iff.mp h) (singleParts x).1
  obtain ⟨v, hv, hd⟩ := Option.bind_eq_some_iff.mp hr
  exact ⟨v, readsAs_numeral ((parse?_numeral hn).symm.trans hv) hn, hd⟩

end Scalars

section Sections

variable {entries : List (String × String)} {values : List (String × Value)}

-- The texts of a section's fields.
def fieldTexts (fields : Fields) : List (String × String) :=
  fields.map fun (name, value) => (name, value.toJson)

-- The text of a section.
def sectionText (fields : Fields) : String :=
  Document.jsonObject "  " (fieldTexts fields)

theorem isBlank_indent : ∀ c ∈ "  ".toList, isBlank c := by
  simp [isBlank]

theorem gives_polarity {o : PolarityOptions} (h : o.darkBgThreshold.isFinite)
    (hr : ReadsBack o.darkBgThreshold) :
    Gives (Decode.polarity? .json) (sectionText o.toFields) o := by
  obtain ⟨mode, hmode, dmode⟩ := gives_choice o.mode.lookup_name
  obtain ⟨threshold, hthreshold, dthreshold⟩ := gives_single h hr
  refine ⟨.table [("mode", mode), ("dark_bg_threshold", threshold)], ?_, ?_⟩
  · exact readsAs_jsonObject isBlank_indent <| .cons ⟨rfl, hmode⟩ <| .cons ⟨rfl, hthreshold⟩ .nil
  · simp [Decode.polarity?, Decode.fields?, Decode.field?, Value.get?, List.lookup, dmode,
      dthreshold]

theorem gives_scale {o : ScaleOptions} (h : o.factor.isFinite) (hr : ReadsBack o.factor) :
    Gives (Decode.scale? .json) (sectionText o.toFields) o := by
  obtain ⟨enabled, henabled, denabled⟩ := gives_bool o.enabled
  obtain ⟨factor, hfactor, dfactor⟩ := gives_single h hr
  refine ⟨.table [("enabled", enabled), ("factor", factor)], ?_, ?_⟩
  · exact readsAs_jsonObject isBlank_indent <| .cons ⟨rfl, henabled⟩ <| .cons ⟨rfl, hfactor⟩ .nil
  · simp [Decode.scale?, Decode.fields?, Decode.field?, Value.get?, List.lookup, denabled, dfactor]

theorem gives_unsharp {o : UnsharpOptions} (h : o.fract.isFinite) (hr : ReadsBack o.fract) :
    Gives (Decode.unsharp? .json) (sectionText o.toFields) o := by
  obtain ⟨enabled, henabled, denabled⟩ := gives_bool o.enabled
  obtain ⟨halfwidth, hhalfwidth, dhalfwidth⟩ := gives_uint32 o.halfwidth
  obtain ⟨fract, hfract, dfract⟩ := gives_single h hr
  refine ⟨.table [("enabled", enabled), ("halfwidth", halfwidth), ("fract", fract)], ?_, ?_⟩
  · exact readsAs_jsonObject isBlank_indent <| .cons ⟨rfl, henabled⟩ <|
      .cons ⟨rfl, hhalfwidth⟩ <| .cons ⟨rfl, hfract⟩ .nil
  · simp [Decode.unsharp?, Decode.fields?, Decode.field?, Value.get?, List.lookup, denabled,
      dhalfwidth, dfract]

theorem gives_binarize {o : BinarizeOptions} (h : o.scoreFraction.isFinite)
    (hr : ReadsBack o.scoreFraction) :
    Gives (Decode.binarize? .json) (sectionText o.toFields) o := by
  obtain ⟨enabled, henabled, denabled⟩ := gives_bool o.enabled
  obtain ⟨width, hwidth, dwidth⟩ := gives_uint32 o.tileWidth
  obtain ⟨height, hheight, dheight⟩ := gives_uint32 o.tileHeight
  obtain ⟨x, hx, dx⟩ := gives_uint32 o.smoothX
  obtain ⟨y, hy, dy⟩ := gives_uint32 o.smoothY
  obtain ⟨fraction, hfraction, dfraction⟩ := gives_single h hr
  refine ⟨.table [("enabled", enabled), ("tile_width", width), ("tile_height", height),
    ("smooth_x", x), ("smooth_y", y), ("score_fraction", fraction)], ?_, ?_⟩
  · exact readsAs_jsonObject isBlank_indent <| .cons ⟨rfl, henabled⟩ <| .cons ⟨rfl, hwidth⟩ <|
      .cons ⟨rfl, hheight⟩ <| .cons ⟨rfl, hx⟩ <| .cons ⟨rfl, hy⟩ <| .cons ⟨rfl, hfraction⟩ .nil
  · simp [Decode.binarize?, Decode.fields?, Decode.field?, Value.get?, List.lookup, denabled,
      dwidth, dheight, dx, dy, dfraction]

theorem gives_magnification {magnification : Option Float32}
    (h : ∀ x ∈ magnification, x.isFinite ∧ ReadsBack x) :
    Gives (Decode.optional? Decode.float32?) (magnification.elim .none Scalar.single).toJson
      magnification := by
  cases magnification
  case none   => exact gives_none
  case some x => exact (gives_single (h x rfl).left (h x rfl).right).optional rfl

theorem gives_threads (threads : Option UInt64) :
    Gives (Decode.optional? Decode.uint64?) (threadsScalar threads).toJson threads := by
  cases threads
  case none   => exact gives_none
  case some n => exact (gives_uint64 n).optional rfl

theorem gives_furigana {o : FuriganaSettings} (hi : o.minInk.isFinite ∧ ReadsBack o.minInk)
    (hw : o.minWidth.isFinite ∧ ReadsBack o.minWidth) (hk : o.keepRatio.isFinite)
    (hm : ∀ x ∈ o.magnification, x.isFinite ∧ ReadsBack x) :
    Gives (Decode.furigana? .json) (sectionText o.toFields) o := by
  obtain ⟨mode, hmode, dmode⟩ := gives_choice o.mode.lookup_name
  obtain ⟨ink, hink, dink⟩ := gives_single hi.left hi.right
  obtain ⟨width, hwidth, dwidth⟩ := gives_single hw.left hw.right
  obtain ⟨spans, hspans, dspans⟩ := gives_uint64 o.maxSpans
  obtain ⟨ratio, hratio, dratio⟩ := gives_double hk
  obtain ⟨magnification, hmagnification, dmagnification⟩ := gives_magnification hm
  refine ⟨.table [("mode", mode), ("min_fg_pixels_per_line", ink), ("min_span_width", width),
    ("max_spans", spans), ("keep_ratio", ratio), ("magnification", magnification)], ?_, ?_⟩
  · exact readsAs_jsonObject isBlank_indent <| .cons ⟨rfl, hmode⟩ <| .cons ⟨rfl, hink⟩ <|
      .cons ⟨rfl, hwidth⟩ <| .cons ⟨rfl, hspans⟩ <| .cons ⟨rfl, hratio⟩ <|
      .cons ⟨rfl, hmagnification⟩ .nil
  · simp [Decode.furigana?, Decode.fields?, Decode.field?, Value.get?, List.lookup, dmode, dink,
      dwidth, dspans, dratio, dmagnification]

end Sections

end Json

namespace PageOptions

-- All numbers of the shorter format.
def singles (o : PageOptions) : List Float32 :=
  [o.polarity.darkBgThreshold, o.scale.factor, o.unsharp.fract, o.binarize.scoreFraction,
    o.furigana.minInk, o.furigana.minWidth] ++ o.furigana.magnification.toList

-- JSON has no text for what is not finite.
theorem ofJson?_toJson (o : PageOptions) (hs : ∀ x ∈ o.singles, x.isFinite)
    (hk : o.furigana.keepRatio.isFinite) (hr : ∀ x ∈ o.singles, Json.ReadsBack x) :
    ofJson? o.toJson = some o := by
  simp only [singles, List.cons_append, List.nil_append, List.mem_cons, Option.mem_toList,
    forall_eq_or_imp] at hs hr
  obtain ⟨hs₁, hs₂, hs₃, hs₄, hs₅, hs₆, hs₇⟩ := hs
  obtain ⟨hr₁, hr₂, hr₃, hr₄, hr₅, hr₆, hr₇⟩ := hr
  obtain ⟨polarity, hpolarity, dpolarity⟩ := Json.gives_polarity hs₁ hr₁
  obtain ⟨scale, hscale, dscale⟩ := Json.gives_scale hs₂ hr₂
  obtain ⟨unsharp, hunsharp, dunsharp⟩ := Json.gives_unsharp hs₃ hr₃
  obtain ⟨binarize, hbinarize, dbinarize⟩ := Json.gives_binarize hs₄ hr₄
  obtain ⟨furigana, hfurigana, dfurigana⟩ := Json.gives_furigana ⟨hs₅, hr₅⟩ ⟨hs₆, hr₆⟩ hk
    fun x hx => ⟨hs₇ x hx, hr₇ x hx⟩
  obtain ⟨threads, hthreads, dthreads⟩ := Json.gives_threads o.threads
  have h : Json.ReadsAs o.toJson (.table [("polarity", polarity), ("scale", scale),
      ("unsharp", unsharp), ("binarize", binarize), ("furigana", furigana),
      ("threads", threads)]) :=
    Json.readsAs_jsonObject (by simp) <| .cons ⟨rfl, hpolarity⟩ <| .cons ⟨rfl, hscale⟩ <|
      .cons ⟨rfl, hunsharp⟩ <| .cons ⟨rfl, hbinarize⟩ <| .cons ⟨rfl, hfurigana⟩ <|
      .cons ⟨rfl, hthreads⟩ .nil
  rw [ofJson?, Json.parse?_of_readsAs h]
  simp [Decode.pageOptions?, Decode.fields?, Decode.field?, Value.get?, List.lookup, dpolarity,
    dscale, dunsharp, dbinarize, dfurigana, dthreads]

-- Options that leave nothing out, with numbers that no binary format holds exactly.
def fullOptions : PageOptions where
  polarity := { mode := .yes, darkBgThreshold := 0.3 }
  scale    := { factor := 1e20 }
  furigana := { mode := .vertical, keepRatio := 1e-7, magnification := some 2.54 }
  threads  := some 0xffffffffffffffff

theorem ofJson?_toJson_fullOptions :
    (∀ x ∈ fullOptions.singles, x.isFinite ∧ Json.ReadsBack x) ∧
      fullOptions.furigana.keepRatio.isFinite ∧ ofJson? fullOptions.toJson = some fullOptions := by
  have hs : ∀ x ∈ fullOptions.singles, x.isFinite := by decide +kernel
  have hk : fullOptions.furigana.keepRatio.isFinite := by decide +kernel
  have hr : ∀ x ∈ fullOptions.singles, Json.ReadsBack x := by decide +kernel
  exact ⟨fun x hx => ⟨hs x hx, hr x hx⟩, hk, ofJson?_toJson _ hs hk hr⟩

end PageOptions

end PagePrep
