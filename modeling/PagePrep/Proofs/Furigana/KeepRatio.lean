import Mathlib
import PagePrep.Proofs.Furigana.Removal
import PagePrep.Proofs.Number.Truncation

-- The larger the share of the average width that main text has to have, the less is main text, and
-- the more is erased as long as there is any main text at all.

namespace PagePrep

section Sparing

variable {good : Nat → Bool} {lineCount minWidth capacity line : Nat} {spans kept kept' : List Span}

theorem Span.eq_or_before_of_getLast? {s t : Span} (ho : kept.Pairwise Span.Before) (hs : s ∈ kept)
    (ht : t ∈ kept.getLast?) : s = t ∨ s.Before t := by
  obtain ⟨rest, rfl⟩ := List.getLast?_eq_some_iff.mp ht
  cases List.mem_append.mp hs
  case inl hs => exact .inr <| (List.pairwise_append.mp ho).right.right s hs t (by simp)
  case inr hs => exact .inl <| List.mem_singleton.mp hs

-- The final line is spared behind the last span that is kept, and no span starts that late.
theorem FirstRuns.spares_of_sublist (h : FirstRuns good lineCount minWidth capacity spans)
    (hkept : kept.Sublist spans) (hsub : kept'.Sublist kept)
    (hs : ErasurePlan.Spares lineCount kept' line) : ErasurePlan.Spares lineCount kept line := by
  cases hs
  case inl hs =>
    obtain ⟨s, hs, hc⟩ := hs
    exact .inl ⟨s, hsub.subset hs, hc⟩
  case inr hs =>
    obtain ⟨s, hs, he, hl⟩ := hs
    have hmem : s ∈ kept := hsub.subset (List.mem_of_getLast? hs)
    have ht := List.getLast?_eq_some_getLast (List.ne_nil_of_mem hmem)
    refine .inr ⟨_, ht, ?_, hl⟩
    cases Span.eq_or_before_of_getLast? (h.ordered.sublist hkept) hmem ht
    case inl heq => exact heq ▸ he
    case inr hlt =>
      have hrun := h.sound _ (hkept.subset (List.mem_of_getLast? ht))
      have hstart := hrun.start_lt
      have hstop := hrun.stop_lt
      omega

theorem FirstRuns.erases_of_sublist (h : FirstRuns good lineCount minWidth capacity spans)
    (hkept : kept.Sublist spans) (hsub : kept'.Sublist kept) (hk : kept' ≠ [])
    (he : ErasurePlan.Erases lineCount kept line) : ErasurePlan.Erases lineCount kept' line :=
  ⟨hk, mt (h.spares_of_sublist hkept hsub) he.right⟩

end Sparing

section Removing

variable {page : Page} {axis : ScanAxis} {d : Detection} {orientation : Orientation}
  {o : RemovalOptions} {r₁ r₂ : Float}

theorem Detection.kept_sublist_kept (hr : r₁ ≤ r₂) : (d.kept r₂).Sublist (d.kept r₁) := by
  unfold kept
  split
  case h_1 => exact .refl _
  case h_2 average _ =>
    refine List.monotone_filter_right _ fun s hs => ?_
    have hmin := UInt32.le_iff_toNat_le.mp (Truncation.toUInt32_mul_le_mul (a := average) hr)
    exact decide_eq_true (Nat.le_trans hmin (of_decide_eq_true hs))

theorem Page.get?_only_eq_some_true {kept : List Span} {x y : UInt32} :
    (page.only axis kept).get? x y = some true ↔
      page.get? x y = some true ∧
        ¬ErasurePlan.Erases (page.lineCount axis).toNat kept (axis.point x y).1.toNat := by
  cases hi : page.get? x y <;> simp [only, get?_blanked, hi, and_comm]

-- Without the room for the spans there is nothing to compare.
theorem removeFurigana_keepRatio (h : o.magnification.isFinite ∧ 0 < o.magnification)
    (hr : r₁ ≤ r₂) :
    if SpanList.Reservable o.maxSpans.toNat then
      ∃ thresholds d report₁ after₁ report₂ after₂,
        o.thresholds = .ok thresholds ∧
        detectSpans page orientation.scanAxis thresholds o.maxSpans.toNat = .ok d ∧
        removeFurigana { o with keepRatio := r₁ } orientation page = (.ok report₁, after₁) ∧
        removeFurigana { o with keepRatio := r₂ } orientation page = (.ok report₂, after₂) ∧
        page.KeepsOnly orientation.scanAxis (d.kept r₁) after₁ ∧
        page.KeepsOnly orientation.scanAxis (d.kept r₂) after₂ ∧
        report₁.spansKept = (d.kept r₁).length ∧
        report₂.spansKept = (d.kept r₂).length ∧
        (d.kept r₂).Sublist (d.kept r₁) ∧
        (1 ≤ report₂.spansKept →
          (∀ x y, after₂.get? x y = some true → after₁.get? x y = some true) ∧
          report₁.erasedLines ≤ report₂.erasedLines)
    else
      ∀ r, removeFurigana { o with keepRatio := r } orientation page =
        (.error (.panicked .capacityOverflow), page) := by
  have ⟨thresholds, ht⟩ := o.exists_thresholds h
  split
  case isFalse hc =>
    intro r
    exact removeFurigana_of_not_reservable (o := { o with keepRatio := r }) page ht hc
  case isTrue hc =>
    obtain ⟨d, hd, hf⟩ := Detection.detectSpans_page page orientation.scanAxis thresholds hc
    have hsub : (d.kept r₂).Sublist (d.kept r₁) := Detection.kept_sublist_kept hr
    have hpage (r : Float) : removeFurigana { o with keepRatio := r } orientation page = _ :=
      removeFurigana_page ht hd
    refine ⟨thresholds, d, _, _, _, _, ht, hd, hpage r₁, hpage r₂, Page.keepsOnly_only,
      Page.keepsOnly_only, rfl, rfl, hsub, fun hk => ?_⟩
    have herases {line : Nat} (he : ErasurePlan.Erases _ (d.kept r₁) line) :
        ErasurePlan.Erases _ (d.kept r₂) line :=
      hf.firstRuns.erases_of_sublist Detection.kept_sublist hsub (List.length_pos_iff.mp hk) he
    constructor
    case left =>
      intro x y
      rw [Page.get?_only_eq_some_true, Page.get?_only_eq_some_true]
      exact fun ⟨hi, he⟩ => ⟨hi, mt herases he⟩
    case right =>
      have hlines (r : Float) := ErasurePlan.sum_extents_gaps (hf.laid_kept r)
      refine (hlines r₁).trans_le (Nat.le_trans ?_ (hlines r₂).ge)
      exact List.countP_mono_left fun _ _ he => decide_eq_true (herases (of_decide_eq_true he))

-- With a smaller share the narrow run is main text as well.
theorem removeFurigana_keepRatio_wideningRuns :
    (0.5 : Float) ≤ 0.9 ∧ ∃ report₁ after₁ report₂ after₂,
      removeFurigana { keepRatio := 0.5 } .vertical wideningRuns = (.ok report₁, after₁) ∧
      removeFurigana { keepRatio := 0.9 } .vertical wideningRuns = (.ok report₂, after₂) ∧
      wideningRuns.KeepsOnly .columns [⟨0, 5⟩, ⟨6, 16⟩, ⟨17, 37⟩] after₁ ∧
      wideningRuns.KeepsOnly .columns [⟨6, 16⟩, ⟨17, 37⟩] after₂ ∧
      (∀ x y, after₂.get? x y = some true → after₁.get? x y = some true) ∧
      report₁.erasedLines ≤ report₂.erasedLines := by
  have hr : (0.5 : Float) ≤ 0.9 := by decide +kernel
  have hroom : SpanList.Reservable ({} : RemovalOptions).maxSpans.toNat := by decide
  have hboth := @removeFurigana_keepRatio wideningRuns .vertical {} 0.5 0.9 (by decide +kernel) hr
  obtain ⟨_, d, report₁, after₁, report₂, after₂, ht, hd, h₁, h₂, hk₁, hk₂, _, hn, _, hle⟩ :=
    if_pos hroom ▸ hboth
  have hd' : detectSpans wideningRuns .columns ⟨2, 5⟩ 50 =
      .ok ⟨⟨[⟨0, 5⟩, ⟨6, 16⟩, ⟨17, 37⟩], 50⟩, 35, false⟩ := by decide +kernel
  cases ht.symm.trans thresholds_default
  cases hd.symm.trans hd'
  have hkept₁ : Detection.kept ⟨⟨[⟨0, 5⟩, ⟨6, 16⟩, ⟨17, 37⟩], 50⟩, 35, false⟩ 0.5 =
      [⟨0, 5⟩, ⟨6, 16⟩, ⟨17, 37⟩] := by decide +kernel
  have hkept₂ : Detection.kept ⟨⟨[⟨0, 5⟩, ⟨6, 16⟩, ⟨17, 37⟩], 50⟩, 35, false⟩ 0.9 =
      [⟨6, 16⟩, ⟨17, 37⟩] := by decide +kernel
  rw [hkept₁] at hk₁
  rw [hkept₂] at hk₂ hn
  have ⟨hink, hlines⟩ := hle (by rw [hn]; decide)
  exact ⟨hr, report₁, after₁, report₂, after₂, h₁, h₂, hk₁, hk₂, hink, hlines⟩

end Removing

end PagePrep
