import Mathlib
import PagePrep.Options.Basic
import PagePrep.Proofs.Furigana.Repetition

-- Of the spans that are found on a page at least the widest is main text, whatever the settings
-- are: no share of the average is more than the average, and that is no more than the greatest
-- width.

namespace PagePrep

section Average

variable {good : Nat → Bool} {lineCount minWidth capacity m : Nat} {d : Detection}
  {average : UInt32} {spans : List Span}

theorem Span.totalGoodLines_le (h : ∀ s ∈ spans, s.goodLines good ≤ m) :
    totalGoodLines good spans ≤ m * spans.length := by
  have hf := totalGoodLines_filter (p := fun _ => false) fun s hs _ => h s hs
  simpa [totalGoodLines] using hf

theorem exists_widest (h : spans ≠ []) :
    ∃ widest ∈ spans, ∀ s ∈ spans, s.width ≤ widest.width := by
  obtain ⟨s, hs⟩ := List.exists_mem_of_ne_nil _ h
  obtain ⟨widest, hw, hmax⟩ :=
    spans.toFinset.exists_max_image (·.width.toNat) ⟨s, List.mem_toFinset.mpr hs⟩
  refine ⟨widest, List.mem_toFinset.mp hw, fun t ht => ?_⟩
  exact UInt32.le_iff_toNat_le.mpr (hmax t (List.mem_toFinset.mpr ht))

namespace Detection.Finds

variable (h : d.Finds good lineCount minWidth capacity) (hn : lineCount < UInt32.size)
  (ha : d.averageWidth? = some average) (hs : d.spans.spans ≠ [])
include h hn ha hs

theorem le_average : max 1 minWidth ≤ average.toNat := by
  have ⟨average', ha', he⟩ := h.averageWidth?_eq hn hs
  cases ha.symm.trans ha'
  rw [he, Span.averageGoodLines, Nat.le_div_iff_mul_le (List.length_pos_iff.mpr hs)]
  exact mul_length_le_totalGoodLines fun s hs => max_one_le_goodLines (h.firstRuns.sound s hs)

-- A span covers one line more than it has good ones, unless it ends with the last line.
theorem average_le_width {widest : Span} (hw : ∀ s ∈ d.spans.spans, s.width ≤ widest.width) :
    average ≤ widest.width := by
  have ⟨average', ha', he⟩ := h.averageWidth?_eq hn hs
  cases ha.symm.trans ha'
  have hle : ∀ s ∈ d.spans.spans, s.goodLines good ≤ widest.width.toNat := fun s hs => by
    have hrun := (h.firstRuns.sound s hs).toIsRun
    have hlt := hrun.start_lt
    have hwidth := hrun.toNat_width hn
    have hgood : s.goodLines good ≤ _ := Span.goodLines_le
    have hw := UInt32.le_iff_toNat_le.mp (hw s hs)
    omega
  rw [UInt32.le_iff_toNat_le, he, Span.averageGoodLines]
  exact Nat.div_le_of_le_mul (Nat.mul_comm .. ▸ Span.totalGoodLines_le hle)

end Detection.Finds

end Average

theorem not_one_lt_clampUnit (x : Float) : ¬1 < clampUnit x := by
  rw [clampUnit]
  split
  case isTrue => decide +kernel
  case isFalse =>
    split
    case isTrue    => exact FloatOrder.not_lt_self 1
    case isFalse h => exact h

theorem minWidth_clampUnit_le (average : UInt32) (x : Float) :
    ErasurePlan.minWidth average (clampUnit x) ≤ average :=
  Truncation.toUInt32_mul_le_of_not_lt (not_one_lt_clampUnit x)

-- The share is no more than the whole of the average.
theorem Detection.Finds.mem_kept_clampUnit {good : Nat → Bool} {lineCount minWidth capacity : Nat}
    {d : Detection} {average : UInt32} {s : Span} (h : d.Finds good lineCount minWidth capacity)
    (hn : lineCount < UInt32.size) (ha : d.averageWidth? = some average) (hs : s ∈ d.spans.spans)
    (hle : average ≤ s.width) (x : Float) : s ∈ d.kept (clampUnit x) := by
  have hmin := UInt32.le_iff_toNat_le.mp <| UInt32.le_trans (minWidth_clampUnit_le average x) hle
  rw [(h.firstRuns.sound s hs).toIsRun.toNat_width hn] at hmin
  rw [kept_eq ha]
  exact List.mem_filter.mpr ⟨hs, decide_eq_true hmin⟩

section Removing

variable {page : Page} {orientation : Orientation} {s : FuriganaSettings} {magnification : Float32}

theorem removeFurigana_keeps_widest (h : magnification.isFinite ∧ 0 < magnification) :
    if SpanList.Reservable (max 1 s.maxSpans.toNat) then
      ∃ thresholds d report after,
        (s.toRemoval magnification).thresholds = .ok thresholds ∧
        detectSpans page orientation.scanAxis thresholds (max 1 s.maxSpans.toNat) = .ok d ∧
        removeFurigana (s.toRemoval magnification) orientation page = (.ok report, after) ∧
        report.spansFound = d.spans.length ∧
        report.spansKept ≤ report.spansFound ∧
        report.spansFound ≤ max 1 s.maxSpans.toNat ∧
        (1 ≤ report.spansFound →
          1 ≤ report.spansKept ∧
          max 1 thresholds.minWidth.toNat ≤ report.averageWidth.toNat ∧
          ∃ widest ∈ d.spans.spans,
            (∀ t ∈ d.spans.spans, t.width ≤ widest.width) ∧
            report.averageWidth ≤ widest.width ∧
            ∀ line pos, widest.Covers line.toNat →
              after.onLine? orientation.scanAxis line pos =
                page.onLine? orientation.scanAxis line pos)
    else
      removeFurigana (s.toRemoval magnification) orientation page =
        (.error (.panicked .capacityOverflow), page) := by
  have hm : (s.toRemoval magnification).magnification = magnification := rfl
  have hlimit := FuriganaSettings.toNat_maxSpans_toRemoval (s := s) (m := magnification)
  have hr : (s.toRemoval magnification).keepRatio = clampUnit s.keepRatio := rfl
  rw [←hlimit]
  split
  case isFalse hc =>
    have ⟨_, ht⟩ := RemovalOptions.exists_thresholds (hm ▸ h)
    exact removeFurigana_of_not_reservable page ht hc
  case isTrue hc =>
    obtain ⟨thresholds, d, ht, hd, hpage⟩ := exists_removeFurigana page orientation (hm ▸ h) hc
    have hf := Detection.finds_of_detectSpans hd
    refine ⟨thresholds, d, _, _, ht, hd, hpage, rfl, Detection.kept_sublist.length_le,
      hf.firstRuns.length_le, fun hfound => ?_⟩
    have hs : d.spans.spans ≠ [] := List.length_pos_iff.mp hfound
    have ⟨average, ha, _⟩ := hf.averageWidth?_eq (UInt32.toNat_lt _) hs
    have ⟨widest, hw, hmax⟩ := exists_widest hs
    have hle := hf.average_le_width (UInt32.toNat_lt _) ha hs hmax
    have hkept := hf.mem_kept_clampUnit (UInt32.toNat_lt _) ha hw hle s.keepRatio
    have hreport : d.averageWidth?.getD 0 = average := by rw [ha, Option.getD_some]
    rw [hr, Detection.report, hreport]
    refine ⟨List.length_pos_of_mem hkept, hf.le_average (UInt32.toNat_lt _) ha hs, widest, hw,
      hmax, hle, fun line pos hcovers => ?_⟩
    exact Page.keepsOnly_only.spared line pos (.inl ⟨widest, hkept, hcovers⟩)

-- There is room for the first run alone, and its share of the average is no number.
def noShare : FuriganaSettings :=
  { maxSpans := 0, keepRatio := 0 / 0 }

theorem removeFurigana_keeps_widest_noShare :
    ∃ report after,
      removeFurigana (noShare.toRemoval 1) .vertical wideningRuns = (.ok report, after) ∧
      report.spansFound = 1 ∧ report.spansKept = 1 ∧ 5 ≤ report.averageWidth.toNat ∧
      report.averageWidth ≤ 6 ∧
      ∀ line pos, Span.Covers ⟨0, 5⟩ line.toNat →
        after.onLine? .columns line pos = wideningRuns.onLine? .columns line pos := by
  have hroom : SpanList.Reservable (max 1 noShare.maxSpans.toNat) := by decide
  have hwidest := @removeFurigana_keeps_widest wideningRuns .vertical noShare 1 (by decide +kernel)
  obtain ⟨thresholds, d, report, after, ht, hd, hr, hfound, hkept, _, hkeeps⟩ :=
    if_pos hroom ▸ hwidest
  have ht' : (noShare.toRemoval 1).thresholds = .ok ⟨2, 5⟩ := by decide +kernel
  have hd' : detectSpans wideningRuns .columns ⟨2, 5⟩ 1 =
      .ok ⟨⟨[⟨0, 5⟩], 1⟩, 5, true⟩ := by decide +kernel
  cases ht.symm.trans ht'
  cases hd.symm.trans hd'
  have hfound : report.spansFound = 1 := hfound
  have ⟨hpos, ha, widest, hw, _, hle, hsame⟩ := hkeeps (Nat.le_of_eq hfound.symm)
  cases List.mem_singleton.mp hw
  exact ⟨report, after, hr, hfound, by omega, ha, hle, hsame⟩

end Removing

end PagePrep
