import PagePrep.Furigana.Removal
import PagePrep.Proofs.Furigana.Detection
import PagePrep.Proofs.Furigana.Plan
import PagePrep.Proofs.Raster.Page

-- A removal erases the lines that are not spared for the main text, and does nothing else.

namespace PagePrep

variable {page after : Page} {axis : ScanAxis}

section Erasing

variable {band : Band} {bands : List Band}

-- A band that can be erased: it has lines, and these are lines of the page.
abbrev Band.Fits (lineCount : UInt32) (b : Band) : Prop :=
  0 < b.extent.toNat ∧ b.offset.toNat + b.extent.toNat ≤ lineCount.toNat

-- The rectangle of a band has the pixels of the lines of the band.
theorem Page.covers_bandRect_iff {x y : UInt32} (h : page.Contains x y) :
    (axis.bandRect band page.width page.height).Covers x y ↔
      band.Covers (axis.point x y).1.toNat := by
  have hx := UInt32.lt_iff_toNat_lt.mp h.left
  have hy := UInt32.lt_iff_toNat_lt.mp h.right
  cases axis
  all_goals
    simp [Rect.Covers, Rect.right, Rect.bottom, ScanAxis.bandRect, ScanAxis.point, Band.Covers,
      UInt32.le_iff_toNat_le, hx, hy]

-- A page takes a band whose rectangle fits, and that depends on the size of the page only.
abbrev Page.Accepts (page : Page) (axis : ScanAxis) (band : Band) : Prop :=
  (axis.bandRect band page.width page.height).fitsWithin page.width page.height

theorem Page.accepts_of_fits (hl : 0 < (page.lineLength axis).toNat)
    (hb : band.Fits (page.lineCount axis)) : page.Accepts axis band := by
  have ⟨he, hle⟩ := hb
  cases axis
  all_goals
    simp only [lineLength, lineCount, ScanAxis.lineLength, ScanAxis.lineCount] at hl hle
    simp [Accepts, Rect.fitsWithin, Rect.isEmpty, Rect.right, Rect.bottom, ScanAxis.bandRect, hle,
      ←UInt32.toNat_inj]
    omega

theorem Page.cleared_bandRect (hb : page.Accepts axis band) :
    page.cleared (axis.bandRect band page.width page.height) =
      page.blanked axis fun line => band.Covers line := by
  refine Grid.ext_get? rfl rfl fun x y => ?_
  rw [get?_cleared hb, get?_blanked]
  by_cases h : page.Contains x y
  case pos =>
    rw [Grid.get?_eq_some_get h]
    by_cases hc : band.Covers (axis.point x y).1.toNat
    case pos => rw [if_pos ((covers_bandRect_iff h).mpr hc), decide_eq_true hc]; rfl
    case neg => rw [if_neg (hc ∘ (covers_bandRect_iff h).mp), decide_eq_false hc]; rfl
  case neg => rw [Grid.get?_eq_none_iff.mpr h, Option.map_none, Option.map_none, ite_self]

theorem eraseBand_page (hb : page.Accepts axis band) :
    eraseBand axis band page = (.ok (), page.blanked axis fun line => band.Covers line) := by
  simp only [eraseBand, BinaryRaster.clearRect, BinaryRaster.width, BinaryRaster.height,
    Page.clearRect, hb, if_true, Page.cleared_bandRect hb]

theorem eraseBand_eq_ok_iff {R : Type} [BinaryRaster R] {raster after : R} :
    eraseBand axis band raster = (.ok (), after) ↔
      BinaryRaster.clearRect raster
        (axis.bandRect band (BinaryRaster.width raster) (BinaryRaster.height raster)) =
          (.ok (), after) := by
  simp only [eraseBand]
  split
  case h_1 hc => simp [hc]
  case h_2 hc => simp [hc]

theorem eraseBands_page (hb : ∀ b ∈ bands, page.Accepts axis b) :
    eraseBands axis bands page =
      (.ok (), page.blanked axis fun line => ∃ b ∈ bands, b.Covers line) := by
  induction bands generalizing page
  case nil => simp [eraseBands, Page.blanked_none]
  case cons b rest ih =>
    have ⟨hb, hr⟩ := List.forall_mem_cons.mp hb
    have ih := @ih (page.blanked axis fun line => b.Covers line) hr
    rw [eraseBands, eraseBand_page hb]
    simp only [ih, Page.blanked_blanked]
    simp

end Erasing

section Only

variable {kept : List Span}

-- The page with only the spans in `kept` left of its main text.
def Page.only (page : Page) (axis : ScanAxis) (kept : List Span) : Page :=
  page.blanked axis fun line => ErasurePlan.Erases (page.lineCount axis).toNat kept line

theorem Page.only_nil : page.only axis [] = page := by
  simp only [only, ErasurePlan.Erases]
  exact blanked_none

theorem Page.only_only_self : (page.only axis kept).only axis kept = page.only axis kept := by
  rw [only, only, blanked_blanked]
  exact blanked_congr fun _ _ => Bool.or_self _

open ErasurePlan in
theorem blanked_gaps (h : Span.Laid (page.lineCount axis).toNat 0 kept) :
    (page.blanked axis fun line => ∃ b ∈ gaps (page.lineCount axis) 0 kept, b.Covers line) =
      page.only axis kept := by
  refine Page.blanked_congr fun line hl => ?_
  rw [decide_eq_decide]
  exact exists_covers_gaps_iff_erases h hl

-- What `Page.only` does, pixel by pixel.
structure Page.KeepsOnly (page : Page) (axis : ScanAxis) (kept : List Span) (after : Page) :
    Prop where
  width     : after.width = page.width
  height    : after.height = page.height
  unchanged : kept = [] → after = page
  spared    : ∀ line pos, ErasurePlan.Spares (page.lineCount axis).toNat kept line.toNat →
    after.onLine? axis line pos = page.onLine? axis line pos
  cleared   : kept ≠ [] → ∀ line pos, line < page.lineCount axis → pos < page.lineLength axis →
    ¬ErasurePlan.Spares (page.lineCount axis).toNat kept line.toNat →
    after.onLine? axis line pos = some false
  noNewInk  : ∀ x y, after.get? x y = some true → page.get? x y = some true

theorem Page.keepsOnly_only : page.KeepsOnly axis kept (page.only axis kept) where
  width := rfl
  height := rfl
  unchanged hk := hk ▸ only_nil
  spared line pos hs := by
    simp [only, onLine?_blanked, ErasurePlan.Erases, hs]
  cleared hk line pos hl hp hs := by
    obtain ⟨ink, hi⟩ := Option.isSome_iff_exists.mp <| isSome_onLine?_iff.mpr ⟨hl, hp⟩
    simp [only, onLine?_blanked, ErasurePlan.Erases, hk, hs, hi]
  noNewInk x y hi := by
    simp only [only, get?_blanked, Option.map_eq_some_iff, Bool.and_eq_true] at hi
    obtain ⟨_, hg, _, hi⟩ := hi
    exact hi ▸ hg

end Only

theorem Span.IsRun.toNat_width {good : Nat → Bool} {lineCount : Nat} {s : Span}
    (h : s.IsRun good lineCount) (hn : lineCount < UInt32.size) :
    s.width.toNat = s.stop.toNat - s.start.toNat + 1 :=
  Span.toNat_width (Nat.le_of_lt h.start_lt) (Nat.lt_of_le_of_lt h.stop_lt hn)

def Span.IsMainText (averageWidth : UInt32) (keepRatio : Float) (s : Span) : Prop :=
  (ErasurePlan.minWidth averageWidth keepRatio).toNat ≤ s.stop.toNat - s.start.toNat + 1

instance {averageWidth : UInt32} {keepRatio : Float} {s : Span} :
    Decidable (s.IsMainText averageWidth keepRatio) :=
  inferInstanceAs (Decidable (_ ≤ _))

-- The spans among those found that are main text.
def Detection.kept (d : Detection) (keepRatio : Float) : List Span :=
  match d.averageWidth? with
  | none              => []
  | some averageWidth => d.spans.spans.filter (Span.IsMainText averageWidth keepRatio)

theorem Detection.kept_eq {d : Detection} {average : UInt32} {keepRatio : Float}
    (ha : d.averageWidth? = some average) :
    d.kept keepRatio = d.spans.spans.filter (Span.IsMainText average keepRatio) := by
  rw [kept, ha]

theorem Detection.kept_sublist {d : Detection} {keepRatio : Float} :
    (d.kept keepRatio).Sublist d.spans.spans := by
  rw [kept]
  split
  · exact List.nil_sublist _
  · exact List.filter_sublist

theorem Detection.spans_ne_nil {d : Detection} {keepRatio : Float} (hk : d.kept keepRatio ≠ []) :
    d.spans.spans ≠ [] :=
  fun hs => hk <| List.sublist_nil.mp (hs ▸ kept_sublist)

namespace Detection.Finds

variable {good : Nat → Bool} {lineCount minWidth capacity : Nat} {d : Detection}
  (h : d.Finds good lineCount minWidth capacity)
include h

theorem mainText_eq {average : UInt32} (hn : lineCount < UInt32.size)
    (ha : d.averageWidth? = some average) (keepRatio : Float) :
    ErasurePlan.mainText d.spans.spans average keepRatio = d.kept keepRatio := by
  rw [ErasurePlan.mainText, kept_eq ha]
  refine List.filter_congr fun s hs => ?_
  rw [decide_eq_decide, UInt32.le_iff_toNat_le, (h.firstRuns.sound s hs).toIsRun.toNat_width hn,
    Span.IsMainText]

theorem laid_kept (keepRatio : Float) : Span.Laid lineCount 0 (d.kept keepRatio) := by
  refine .of_ordered (Nat.zero_le _) (h.firstRuns.ordered.sublist kept_sublist) (fun s hs => ?_)
    fun _ _ => Nat.zero_le _
  have hs := h.firstRuns.sound s (kept_sublist.subset hs)
  exact ⟨Nat.le_of_lt hs.start_lt, hs.stop_lt⟩

end Detection.Finds

section Removing

variable {o : RemovalOptions} {orientation : Orientation} {thresholds : SpanThresholds}
  {d : Detection}

theorem RemovalOptions.exists_thresholds (h : o.magnification.isFinite ∧ 0 < o.magnification) :
    ∃ thresholds, o.thresholds = .ok thresholds :=
  ⟨_, if_pos h⟩

-- A span that was found has ink, so there is something to erase.
theorem lineLength_pos {s : Span} {lineCount minInk : UInt32} {minWidth : Nat}
    (h : s.IsWideRun (page.goodLine axis minInk) lineCount.toNat minWidth) :
    0 < (page.lineLength axis).toNat := by
  have ⟨_, hp⟩ := Page.exists_ink_of_goodLine (h.inside _ (Nat.le_refl _) h.start_lt)
  have hl := Page.isSome_onLine?_iff.mp (Option.isSome_of_eq_some hp) |>.right
  exact Nat.zero_lt_of_lt (UInt32.lt_iff_toNat_lt.mp hl)

-- What is said of a removal that found `d` among so many lines.
def Detection.report (d : Detection) (lineCount : UInt32) (keepRatio : Float) : RemovalReport where
  spansFound   := d.spans.length
  spansKept    := (d.kept keepRatio).length
  averageWidth := d.averageWidth?.getD 0
  bands        := ErasurePlan.gaps lineCount 0 (d.kept keepRatio)
  truncated    := d.averageWidth?.isSome && d.truncated

-- Once the spans are found, what is left to do is to erase the bands of the report.
theorem removeFurigana_eq_eraseBands {R : Type} [BinaryRaster R] {raster : R} {good : Nat → Bool}
    {lineCount : UInt32} {minWidth capacity : Nat}
    (hl : orientation.scanAxis.lineCount (BinaryRaster.width raster) (BinaryRaster.height raster) =
      lineCount)
    (ht : o.thresholds = .ok thresholds)
    (hd : detectSpans raster orientation.scanAxis thresholds o.maxSpans.toNat = .ok d)
    (h : d.Finds good lineCount.toNat minWidth capacity) :
    removeFurigana o orientation raster =
      (eraseBands orientation.scanAxis (d.report lineCount o.keepRatio).bands raster).map
        (fun r => (r.mapError .raised).map fun _ => d.report lineCount o.keepRatio) id := by
  by_cases hs : d.spans.spans = []
  case pos =>
    have ha := Detection.averageWidth?_eq_none hs
    have hk : d.kept o.keepRatio = [] := by rw [Detection.kept, ha]
    simp [removeFurigana, ht, hd, Detection.report, ha, hk, hs, SpanList.length, ErasurePlan.gaps,
      eraseBands, Except.map, Except.mapError]
  case neg =>
    obtain ⟨average, ha, _⟩ := h.averageWidth?_eq lineCount.toNat_lt hs
    have hm := h.mainText_eq lineCount.toNat_lt ha o.keepRatio
    simp only [removeFurigana, ht, hd, ha, planErasure, hm, hl, Detection.report, Option.getD_some,
      Option.isSome_some, Bool.true_and]
    obtain ⟨_ | _, _⟩ := eraseBands orientation.scanAxis
      (ErasurePlan.gaps lineCount 0 (d.kept o.keepRatio)) raster <;> rfl

theorem Detection.Finds.accepts_bands {minInk : UInt32} {minWidth capacity : Nat}
    (h : d.Finds (page.goodLine axis minInk) (page.lineCount axis).toNat minWidth capacity)
    (keepRatio : Float) :
    ∀ b ∈ (d.report (page.lineCount axis) keepRatio).bands, page.Accepts axis b := by
  intro b hb
  have hk : d.kept keepRatio ≠ [] := fun hk => by simp [report, hk, ErasurePlan.gaps] at hb
  obtain ⟨s, hs⟩ := List.exists_mem_of_ne_nil _ (spans_ne_nil hk)
  exact Page.accepts_of_fits (lineLength_pos (h.firstRuns.sound s hs))
    (ErasurePlan.bounds_of_mem_gaps (h.laid_kept keepRatio) hb).right

theorem Detection.Finds.eraseBands_report {minInk : UInt32} {minWidth capacity : Nat}
    (h : d.Finds (page.goodLine axis minInk) (page.lineCount axis).toNat minWidth capacity)
    (keepRatio : Float) :
    eraseBands axis (d.report (page.lineCount axis) keepRatio).bands page =
      (.ok (), page.only axis (d.kept keepRatio)) := by
  rw [eraseBands_page (h.accepts_bands keepRatio), ←blanked_gaps (h.laid_kept keepRatio)]
  rfl

theorem removeFurigana_page (ht : o.thresholds = .ok thresholds)
    (hd : detectSpans page orientation.scanAxis thresholds o.maxSpans.toNat = .ok d) :
    removeFurigana o orientation page =
      (.ok (d.report (page.lineCount orientation.scanAxis) o.keepRatio),
        page.only orientation.scanAxis (d.kept o.keepRatio)) := by
  have h := Detection.finds_of_detectSpans hd
  have hr := h.eraseBands_report o.keepRatio
  exact (removeFurigana_eq_eraseBands rfl ht hd h).trans (congrArg _ hr)

-- Where there is no room for the spans, the raster is left as it is, whatever raster it is.
theorem removeFurigana_of_not_reservable {R : Type} [BinaryRaster R] (raster : R)
    (ht : o.thresholds = .ok thresholds) (hc : ¬SpanList.Reservable o.maxSpans.toNat) :
    removeFurigana o orientation raster = (.error (.panicked .capacityOverflow), raster) := by
  simp only [removeFurigana, ht, Detection.detectSpans_of_not_reservable hc]

theorem reservable_of_removeFurigana {R : Type} [BinaryRaster R] {raster after : R}
    {report : RemovalReport} (hr : removeFurigana o orientation raster = (.ok report, after)) :
    SpanList.Reservable o.maxSpans.toNat := by
  by_contra hc
  cases ht : o.thresholds
  case error e => simp [removeFurigana, ht] at hr
  case ok      => cases (removeFurigana_of_not_reservable raster ht hc).symm.trans hr

theorem exists_removeFurigana (page : Page) (orientation : Orientation)
    (h : o.magnification.isFinite ∧ 0 < o.magnification)
    (hc : SpanList.Reservable o.maxSpans.toNat) :
    ∃ thresholds d,
      o.thresholds = .ok thresholds ∧
      detectSpans page orientation.scanAxis thresholds o.maxSpans.toNat = .ok d ∧
      removeFurigana o orientation page =
        (.ok (d.report (page.lineCount orientation.scanAxis) o.keepRatio),
          page.only orientation.scanAxis (d.kept o.keepRatio)) := by
  have ⟨thresholds, ht⟩ := o.exists_thresholds h
  obtain ⟨d, hd, _⟩ := Detection.detectSpans_page page orientation.scanAxis thresholds hc
  exact ⟨thresholds, d, ht, hd, removeFurigana_page ht hd⟩

-- Three runs of columns, five, ten and twenty wide.
def wideningRuns : Page :=
  Grid.ofFn 38 2 fun x _ _ => x ≠ 5 ∧ x ≠ 16 ∧ x ≠ 37

theorem thresholds_default : ({} : RemovalOptions).thresholds = .ok ⟨2, 5⟩ := by
  decide +kernel

theorem detectSpans_wideningRuns :
    ∃ d, detectSpans wideningRuns .columns ⟨2, 5⟩ 50 = .ok d ∧ d.spans.length = 3 ∧
      d.kept 0.9 = [⟨6, 16⟩, ⟨17, 37⟩] :=
  ⟨⟨⟨[⟨0, 5⟩, ⟨6, 16⟩, ⟨17, 37⟩], 50⟩, 35, false⟩, by decide +kernel, rfl, by decide +kernel⟩

theorem removeFurigana_wideningRuns :
    (removeFurigana {} .vertical wideningRuns).1 = .ok ⟨3, 2, 11, [⟨0, 6⟩], false⟩ := by
  decide +kernel

-- The orientations differ by an exchange of the axes of the page only.
theorem removeFurigana_transpose :
    (removeFurigana o .vertical page).1 =
        (removeFurigana o .horizontal (Grid.transpose page)).1 ∧
      (removeFurigana o .vertical page).2 =
        (removeFurigana o .horizontal (Grid.transpose page)).2.transpose := by
  cases ht : o.thresholds
  case error e =>
    simp [removeFurigana, ht, Grid.transpose_transpose]
  case ok thresholds =>
    by_cases hc : SpanList.Reservable o.maxSpans.toNat
    case pos =>
      obtain ⟨d, hd, _⟩ := Detection.detectSpans_page page .columns thresholds hc
      have hv : removeFurigana o .vertical page = _ := removeFurigana_page ht hd
      have hh : removeFurigana o .horizontal (Grid.transpose page) = _ :=
        removeFurigana_page ht (Detection.detectSpans_transpose.trans hd)
      rw [hv, hh]
      refine ⟨rfl, ?_⟩
      simp only
      exact (@Page.transpose_blanked page _).symm
    case neg =>
      rw [removeFurigana_of_not_reservable page ht hc,
        removeFurigana_of_not_reservable (Grid.transpose page) ht hc]
      exact ⟨rfl, Grid.transpose_transpose.symm⟩

end Removing

end PagePrep
