import PagePrep.Proofs.Furigana.Removal
import PagePrep.Proofs.Number.Truncation

-- What is left of the spans after a removal is what the next removal finds. What comes of one
-- removal after the other follows from this.

namespace PagePrep

-- A run does not start with the final line, so only a span can spare its start.
theorem Span.IsRun.exists_covers_of_spares {good : Nat → Bool} {lineCount : Nat} {kept : List Span}
    {t : Span} (ht : t.IsRun good lineCount)
    (h : ErasurePlan.Spares lineCount kept t.start.toNat) :
    ∃ s ∈ kept, s.Covers t.start.toNat := by
  refine h.resolve_right fun ⟨_, _, _, hl⟩ => ?_
  have := ht.start_lt
  have := ht.stop_lt
  omega

namespace FirstRuns

variable {good good' : Nat → Bool} {lineCount minWidth capacity line : Nat}
  {spans kept : List Span} {s t : Span}

section Erased

-- `good'` tells the lines that are good after all but `kept` has been erased.
variable (h : FirstRuns good lineCount minWidth capacity spans) (hsub : kept ⊆ spans)
  (hg : ∀ line < lineCount, good' line = (!ErasurePlan.Erases lineCount kept line && good line))
include h hsub hg

theorem good_eq_of_covers (hs : s ∈ kept) (hc : s.Covers line) : good line = good' line := by
  have hlt := (h.sound s (hsub hs)).stop_lt
  have hspared : ErasurePlan.Spares lineCount kept line := .inl ⟨s, hs, hc⟩
  simp [hg line (Nat.lt_of_le_of_lt hc.right hlt), ErasurePlan.Erases, hspared]

theorem isWideRun_erased (hs : s ∈ kept) : s.IsWideRun good' lineCount minWidth where
  toIsRun := by
    have hr := h.sound s (hsub hs)
    refine hr.toIsRun.congr (fun _ => h.good_eq_of_covers hsub hg hs) fun line hl => ?_
    have := hr.start_lt
    have := hr.stop_lt
    rw [hg line (by omega), hr.opened line hl, Bool.and_false]
  wide := by
    rw [←Span.goodLines_congr fun _ => h.good_eq_of_covers hsub hg hs]
    exact (h.sound s (hsub hs)).wide

theorem mem_of_isRun_erased (hk : kept ≠ []) (ht : t.IsRun good' lineCount) : t ∈ kept := by
  have hgood := ht.inside _ (Nat.le_refl _) ht.start_lt
  rw [hg _ (Nat.lt_trans ht.start_lt ht.stop_lt)] at hgood
  have hkept := Bool.and_eq_true_iff.mp hgood |>.left
  have hspared : ErasurePlan.Spares lineCount kept t.start.toNat := by
    simpa [ErasurePlan.Erases, hk] using hkept
  obtain ⟨s, hs, hc⟩ := ht.exists_covers_of_spares hspared
  exact (h.isWideRun_erased hsub hg hs).toIsRun.eq_of_covers_start ht hc ▸ hs

end Erased

-- Nothing is lost of the spans that are kept, and there are no others left.
theorem erased (h : FirstRuns good lineCount minWidth capacity spans) (hsub : kept.Sublist spans)
    (hk : kept ≠ [])
    (hg : ∀ line < lineCount,
      good' line = (!ErasurePlan.Erases lineCount kept line && good line)) :
    FirstRuns good' lineCount minWidth capacity kept where
  ordered       := h.ordered.sublist hsub
  sound _ hs    := h.isWideRun_erased hsub.subset hg hs
  length_le     := Nat.le_trans hsub.length_le h.length_le
  complete _ ht := .inl <| h.mem_of_isRun_erased hsub.subset hg hk ht.toIsRun

end FirstRuns

theorem Span.averageGoodLines_congr {good good' : Nat → Bool} {spans : List Span}
    (h : ∀ s ∈ spans, s.goodLines good = s.goodLines good') :
    averageGoodLines good spans = averageGoodLines good' spans := by
  suffices totalGoodLines good spans = totalGoodLines good' spans by
    rw [averageGoodLines, averageGoodLines, this]
  induction spans
  case nil => rfl
  case cons s rest ih =>
    have ⟨hs, hr⟩ := List.forall_mem_cons.mp h
    rw [totalGoodLines, totalGoodLines, hs, ih hr]

section Erasing

variable {page : Page} {axis : ScanAxis} {thresholds : SpanThresholds} {capacity : Nat}
  {d : Detection} {kept kept' : List Span}

-- A span that was found and is not kept is not spared, as spans do not overlap.
theorem FirstRuns.not_spares_start {good : Nat → Bool} {lineCount minWidth capacity : Nat}
    {spans : List Span} {s : Span} (h : FirstRuns good lineCount minWidth capacity spans)
    (hsub : kept ⊆ spans) (hs : s ∈ spans) (hn : s ∉ kept) :
    ¬ErasurePlan.Spares lineCount kept s.start.toNat := by
  intro hspared
  have hr := (h.sound s hs).toIsRun
  have ⟨t, ht, hc⟩ := hr.exists_covers_of_spares hspared
  exact hn <| (h.sound t (hsub ht)).toIsRun.eq_of_covers_start hr hc ▸ ht

-- The ink on the first line of a span that is no longer kept makes the difference.
theorem Page.only_only_eq_iff {spans : List Span} {minInk : UInt32} {minWidth : Nat}
    (h : FirstRuns (page.goodLine axis minInk) (page.lineCount axis).toNat minWidth capacity spans)
    (hsub : kept.Sublist spans) (hsub' : kept'.Sublist kept) (hk' : kept' ≠ []) :
    (page.only axis kept).only axis kept' = page.only axis kept ↔ kept' = kept := by
  constructor
  case mp =>
    intro he
    have hkept : kept ⊆ kept' := fun s hs => by
      by_contra hn
      have hr := h.sound s (hsub.subset hs)
      have ⟨pos, hp⟩ := exists_ink_of_goodLine <| hr.inside _ (Nat.le_refl _) hr.start_lt
      have hspared : ErasurePlan.Spares (page.lineCount axis).toNat kept s.start.toNat :=
        .inl ⟨s, hs, Nat.le_refl _, Nat.le_of_lt hr.start_lt⟩
      have he := congrArg (onLine? · axis s.start pos) he
      simp [only, onLine?_blanked, hp, ErasurePlan.Erases, hspared, hk'] at he
      exact h.not_spares_start (hsub'.trans hsub).subset (hsub.subset hs) hn he
    exact hsub'.eq_of_length_le <| (h.nodup.sublist hsub).length_le_of_subset hkept
  case mpr => exact fun he => he ▸ only_only_self

-- What is found on the page that a removal has left.
theorem Detection.detectSpans_only (hc : SpanList.Reservable capacity)
    (h : d.Finds (page.goodLine axis thresholds.minInk) (page.lineCount axis).toNat
      thresholds.minWidth.toNat capacity)
    (hsub : kept.Sublist d.spans.spans) (hk : kept ≠ []) :
    ∃ d', detectSpans (page.only axis kept) axis thresholds capacity = .ok d' ∧
      d'.spans.spans = kept ∧ ∃ average, d'.averageWidth? = some average ∧
        average.toNat = Span.averageGoodLines (page.goodLine axis thresholds.minInk) kept := by
  obtain ⟨d', hd', h'⟩ := detectSpans_page (page.only axis kept) axis thresholds hc
  have hg : ∀ line < (page.lineCount axis).toNat,
      (page.only axis kept).goodLine axis thresholds.minInk line =
        (!ErasurePlan.Erases (page.lineCount axis).toNat kept line &&
          page.goodLine axis thresholds.minInk line) := fun line hl =>
    Page.goodLine_blanked (Nat.lt_trans hl (UInt32.toNat_lt _))
  have hs : d'.spans.spans = kept := h'.firstRuns.unique (h.firstRuns.erased hsub hk hg)
  have ⟨average, ha, he⟩ := h'.averageWidth?_eq (UInt32.toNat_lt _) (hs ▸ hk)
  refine ⟨d', hd', hs, average, ha, ?_⟩
  rw [he, hs]
  refine Span.averageGoodLines_congr fun s hs => Span.goodLines_congr fun line hc => ?_
  exact h.firstRuns.good_eq_of_covers hsub.subset hg hs hc |>.symm

end Erasing

section Average

variable {good : Nat → Bool} {lineCount minWidth capacity : Nat} {d : Detection}
  {average : UInt32} {keepRatio : Float} {spans : List Span}

-- To leave out what is not above `a` takes no more than `a` a span off the total.
theorem Span.totalGoodLines_filter {a : Nat} {p : Span → Bool}
    (h : ∀ s ∈ spans, p s = false → s.goodLines good ≤ a) :
    totalGoodLines good spans + a * (spans.filter p).length ≤
      totalGoodLines good (spans.filter p) + a * spans.length := by
  induction spans
  case nil => exact Nat.le_refl _
  case cons s rest ih =>
    have ⟨hs, hr⟩ := List.forall_mem_cons.mp h
    have ih := ih hr
    cases hp : p s
    case false =>
      have := hs hp
      simp only [List.filter_cons, hp, totalGoodLines, List.length_cons, Nat.mul_add,
        Bool.false_eq_true, if_false]
      omega
    case true =>
      simp only [List.filter_cons, hp, totalGoodLines, List.length_cons, Nat.mul_add, if_true]
      omega

-- The spans that are left out are narrower than the average, so the average of the others is no
-- less.
theorem Detection.Finds.average_le (h : d.Finds good lineCount minWidth capacity)
    (hn : lineCount < UInt32.size) (ha : d.averageWidth? = some average)
    (hw : ErasurePlan.minWidth average keepRatio ≤ average) (hk : d.kept keepRatio ≠ []) :
    average.toNat ≤ Span.averageGoodLines good (d.kept keepRatio) := by
  have ⟨average', ha', he⟩ := h.averageWidth?_eq hn (spans_ne_nil hk)
  cases ha.symm.trans ha'
  rw [Span.averageGoodLines, Nat.le_div_iff_mul_le (List.length_pos_iff.mpr hk)]
  have hdrop : ∀ s ∈ d.spans.spans, decide (s.IsMainText average keepRatio) = false →
      s.goodLines good ≤ average.toNat := by
    intro s hs hd
    have hw := UInt32.le_iff_toNat_le.mp hw
    have := (h.firstRuns.sound s hs).start_lt
    have hle : s.goodLines good ≤ _ := Span.goodLines_le
    rw [decide_eq_false_iff_not, Span.IsMainText] at hd
    omega
  have hf := Span.totalGoodLines_filter hdrop
  rw [←kept_eq ha] at hf
  have hmul : average.toNat * d.spans.spans.length ≤ Span.totalGoodLines good d.spans.spans :=
    he ▸ Nat.div_mul_le_self ..
  omega

end Average

-- The raster after `n` removals.
def afterRemovals {R : Type} [BinaryRaster R] (o : RemovalOptions) (orientation : Orientation)
    (raster : R) : Nat → R
  | 0     => raster
  | n + 1 => afterRemovals o orientation (removeFurigana o orientation raster).2 n

section Passes

section Raster

variable {R : Type} [BinaryRaster R] {o : RemovalOptions} {orientation : Orientation} {raster : R}

theorem afterRemovals_succ (n : Nat) :
    afterRemovals o orientation raster (n + 1) =
      (removeFurigana o orientation (afterRemovals o orientation raster n)).2 := by
  induction n generalizing raster
  case zero      => rfl
  case succ _ ih => exact ih

theorem afterRemovals_of_fixed {n : Nat}
    (h : (removeFurigana o orientation (afterRemovals o orientation raster n)).2 =
      afterRemovals o orientation raster n) {m : Nat} (hm : n ≤ m) :
    afterRemovals o orientation raster m = afterRemovals o orientation raster n := by
  induction hm
  case refl      => rfl
  case step _ ih => rw [afterRemovals_succ, ih, h]

theorem afterRemovals_eq_self (h : (removeFurigana o orientation raster).2 = raster) (n : Nat) :
    afterRemovals o orientation raster n = raster :=
  afterRemovals_of_fixed (n := 0) h (Nat.zero_le n)

end Raster

variable {o : RemovalOptions} {orientation : Orientation} {page after : Page}
  {thresholds : SpanThresholds} {d : Detection} {report : RemovalReport}

-- A removal that keeps all that it finds is followed by one that does so as well.
theorem removeFurigana_only_all (ht : o.thresholds = .ok thresholds)
    (hd : detectSpans page orientation.scanAxis thresholds o.maxSpans.toNat = .ok d)
    (hk : d.kept o.keepRatio = d.spans.spans) :
    (removeFurigana o orientation (page.only orientation.scanAxis d.spans.spans)).2 =
      page.only orientation.scanAxis d.spans.spans := by
  have h := Detection.finds_of_detectSpans hd
  have hc := Detection.reservable_of_detectSpans hd
  by_cases hs : d.spans.spans = []
  case pos => rw [hs, Page.only_nil, removeFurigana_page ht hd, hk, hs, Page.only_nil]
  case neg =>
    have ⟨d', hd', hs', average', ha', he'⟩ := Detection.detectSpans_only hc h (.refl _) hs
    have ⟨average, ha, he⟩ := h.averageWidth?_eq (UInt32.toNat_lt _) hs
    have hk' : d'.kept o.keepRatio = d.spans.spans := by
      rw [Detection.kept_eq ha', hs', UInt32.toNat_inj.mp (he'.trans he.symm),
        ←Detection.kept_eq ha, hk]
    rw [removeFurigana_page ht hd', hk', Page.only_only_self]

-- A removal that keeps less than it finds leaves fewer spans for the next.
theorem removeFurigana_afterRemovals (ht : o.thresholds = .ok thresholds) {n : Nat}
    (hd : detectSpans page orientation.scanAxis thresholds o.maxSpans.toNat = .ok d)
    (hn : d.spans.spans.length ≤ n) :
    (removeFurigana o orientation (afterRemovals o orientation page n)).2 =
      afterRemovals o orientation page n := by
  induction n generalizing page d
  case zero =>
    have hs := List.eq_nil_of_length_eq_zero (Nat.le_zero.mp hn)
    have hk : d.kept o.keepRatio = [] := List.sublist_nil.mp (hs ▸ Detection.kept_sublist)
    rw [afterRemovals, removeFurigana_page ht hd, hk, Page.only_nil]
  case succ n ih =>
    have hr := congrArg Prod.snd (removeFurigana_page ht hd)
    have hsub : (d.kept o.keepRatio).Sublist d.spans.spans := Detection.kept_sublist
    by_cases hk : d.kept o.keepRatio = []
    case pos =>
      rw [hk, Page.only_nil] at hr
      rw [afterRemovals_eq_self hr, hr]
    case neg =>
      rw [afterRemovals, hr]
      by_cases he : d.kept o.keepRatio = d.spans.spans
      case pos =>
        have hf := removeFurigana_only_all ht hd he
        rw [he, afterRemovals_eq_self hf, hf]
      case neg =>
        have h := Detection.finds_of_detectSpans hd
        have hc := Detection.reservable_of_detectSpans hd
        have ⟨d', hd', hs', _⟩ := Detection.detectSpans_only hc h hsub hk
        have hlt := Nat.lt_of_le_of_ne hsub.length_le (mt hsub.eq_of_length he)
        exact ih hd' (by rw [hs']; omega)

theorem averageWidth_le_averageWidth (hr : o.keepRatio ≤ 1) (ht : o.thresholds = .ok thresholds)
    (hc : SpanList.Reservable o.maxSpans.toNat) :
    ∃ report report',
      (removeFurigana o orientation page).1 = .ok report ∧
      (removeFurigana o orientation (removeFurigana o orientation page).2).1 = .ok report' ∧
      report.averageWidth ≤ report'.averageWidth := by
  obtain ⟨d, hd, h⟩ := Detection.detectSpans_page page orientation.scanAxis thresholds hc
  have hpage := removeFurigana_page ht hd
  by_cases hk : d.kept o.keepRatio = []
  case pos =>
    rw [hk, Page.only_nil] at hpage
    exact ⟨_, _, congrArg Prod.fst hpage, by rw [hpage, hpage], UInt32.le_refl _⟩
  case neg =>
    have ⟨d', hd', _, average', ha', he'⟩ :=
      Detection.detectSpans_only hc h Detection.kept_sublist hk
    have ⟨average, ha, _⟩ := h.averageWidth?_eq (UInt32.toNat_lt _) (Detection.spans_ne_nil hk)
    have hle := h.average_le (UInt32.toNat_lt _) ha (Truncation.toUInt32_mul_le hr) hk
    refine ⟨_, _, congrArg Prod.fst hpage, by rw [hpage, removeFurigana_page ht hd'], ?_⟩
    rw [UInt32.le_iff_toNat_le]
    simpa [Detection.report, ha, ha', he'] using hle

-- The spans that a removal keeps are the spans that the next one finds, so in the end there is
-- nothing left to erase.
theorem removeFurigana_repeated (h : o.magnification.isFinite ∧ 0 < o.magnification)
    (hr : removeFurigana o orientation page = (.ok report, after)) :
    (1 ≤ report.spansKept → ∃ thresholds d d',
      o.thresholds = .ok thresholds ∧
      detectSpans page orientation.scanAxis thresholds o.maxSpans.toNat = .ok d ∧
      detectSpans after orientation.scanAxis thresholds o.maxSpans.toNat = .ok d' ∧
      report.spansKept = (d.kept o.keepRatio).length ∧
      d'.spans.spans = d.kept o.keepRatio) ∧
    (o.keepRatio ≤ 1 → ∀ n, ∃ report report',
      (removeFurigana o orientation (afterRemovals o orientation page n)).1 = .ok report ∧
      (removeFurigana o orientation (afterRemovals o orientation page (n + 1))).1 = .ok report' ∧
      report.averageWidth ≤ report'.averageWidth) ∧
    ∀ n, report.spansFound ≤ n →
      afterRemovals o orientation page n = afterRemovals o orientation page report.spansFound := by
  have hc := reservable_of_removeFurigana hr
  obtain ⟨thresholds, d, ht, hd, hpage⟩ := exists_removeFurigana page orientation h hc
  have hf := Detection.finds_of_detectSpans hd
  cases hr.symm.trans hpage
  refine ⟨fun hk => ?_, fun hratio n => ?_, fun n hn => ?_⟩
  · have hne : d.kept o.keepRatio ≠ [] := List.length_pos_iff.mp hk
    have ⟨d', hd', hs', _⟩ := Detection.detectSpans_only hc hf Detection.kept_sublist hne
    exact ⟨thresholds, d, d', ht, hd, hd', rfl, hs'⟩
  · rw [afterRemovals_succ]
    exact averageWidth_le_averageWidth hratio ht hc
  · exact afterRemovals_of_fixed (removeFurigana_afterRemovals ht hd (Nat.le_refl _)) hn

theorem removeFurigana_repeated_wideningRuns :
    (∃ d, detectSpans (removeFurigana {} .vertical wideningRuns).2 .columns ⟨2, 5⟩ 50 = .ok d ∧
      d.spans.spans = [⟨6, 16⟩, ⟨17, 37⟩]) ∧
    (∃ report report',
      (removeFurigana {} .vertical (afterRemovals {} .vertical wideningRuns 0)).1 = .ok report ∧
      (removeFurigana {} .vertical (afterRemovals {} .vertical wideningRuns 1)).1 = .ok report' ∧
      report.averageWidth ≤ report'.averageWidth) ∧
    afterRemovals {} .vertical wideningRuns 4 = afterRemovals {} .vertical wideningRuns 3 := by
  have hr : removeFurigana {} .vertical wideningRuns = (_, _) :=
    Prod.ext removeFurigana_wideningRuns rfl
  have ⟨hs, ha, hf⟩ := removeFurigana_repeated (by decide +kernel) hr
  refine ⟨?_, ha (by decide +kernel) 0, hf 4 (by decide)⟩
  have ⟨_, d, d', ht, hd, hd', _, hs⟩ := hs (by decide)
  have ⟨_, hfound, _, hk⟩ := detectSpans_wideningRuns
  cases ht.symm.trans thresholds_default
  cases hd.symm.trans hfound
  exact ⟨d', hd', hs.trans hk⟩

-- The second of two removals changes nothing just if it finds all spans to be main text, or none.
-- It measures them by the average of the spans that are left.
theorem removeFurigana_twice_eq_iff (h : o.magnification.isFinite ∧ 0 < o.magnification)
    (hr : removeFurigana o orientation page = (.ok report, after)) :
    ∃ thresholds d report' after',
      o.thresholds = .ok thresholds ∧
      detectSpans page orientation.scanAxis thresholds o.maxSpans.toNat = .ok d ∧
      removeFurigana o orientation after = (.ok report', after') ∧
      (d.kept o.keepRatio ≠ [] → report'.averageWidth.toNat = Span.averageGoodLines
        (page.goodLine orientation.scanAxis thresholds.minInk) (d.kept o.keepRatio)) ∧
      (after' = after ↔
        (∀ s ∈ d.kept o.keepRatio, s.IsMainText report'.averageWidth o.keepRatio) ∨
          ∀ s ∈ d.kept o.keepRatio, ¬s.IsMainText report'.averageWidth o.keepRatio) := by
  have hc := reservable_of_removeFurigana hr
  obtain ⟨thresholds, d, ht, hd, hpage⟩ := exists_removeFurigana page orientation h hc
  have hf := Detection.finds_of_detectSpans hd
  cases hr.symm.trans hpage
  by_cases hk : d.kept o.keepRatio = []
  case pos =>
    have hafter : page.only orientation.scanAxis (d.kept o.keepRatio) = page := by
      rw [hk, Page.only_nil]
    rw [hafter] at hpage ⊢
    exact ⟨thresholds, d, _, _, ht, hd, hpage, absurd hk, by simp [hk]⟩
  case neg =>
    have ⟨d', hd', hs', average, ha', he'⟩ :=
      Detection.detectSpans_only hc hf Detection.kept_sublist hk
    have hall : (d'.kept o.keepRatio = d.kept o.keepRatio ↔
        ∀ s ∈ d.kept o.keepRatio, s.IsMainText average o.keepRatio) := by
      rw [Detection.kept_eq ha', hs']
      simp
    have hnone : (d'.kept o.keepRatio = [] ↔
        ∀ s ∈ d.kept o.keepRatio, ¬s.IsMainText average o.keepRatio) := by
      rw [Detection.kept_eq ha', hs']
      simp
    have hreport : d'.averageWidth?.getD 0 = average := by rw [ha', Option.getD_some]
    refine ⟨thresholds, d, _, _, ht, hd, removeFurigana_page ht hd', fun _ => ?_, ?_⟩
    · rw [Detection.report, hreport, he']
    · rw [Detection.report, hreport, ←hall, ←hnone]
      by_cases hk' : d'.kept o.keepRatio = []
      case pos => simp [hk', Page.only_nil]
      case neg =>
        have hsub : (d'.kept o.keepRatio).Sublist (d.kept o.keepRatio) :=
          hs' ▸ Detection.kept_sublist
        rw [Page.only_only_eq_iff hf.firstRuns Detection.kept_sublist hsub hk', or_iff_left hk']

-- The first removal takes the run of five away, and the second one that of ten as well.
theorem removeFurigana_twice_wideningRuns :
    ∃ report after report' after',
      removeFurigana {} .vertical wideningRuns = (.ok report, after) ∧
      removeFurigana {} .vertical after = (.ok report', after') ∧ after' ≠ after := by
  have hr : removeFurigana {} .vertical wideningRuns = (_, _) :=
    Prod.ext removeFurigana_wideningRuns rfl
  have ⟨_, d, report', after', ht, hd, hr', ha, hiff⟩ :=
    removeFurigana_twice_eq_iff (by decide +kernel) hr
  have ⟨_, hfound, _, hk⟩ := detectSpans_wideningRuns
  cases ht.symm.trans thresholds_default
  cases hd.symm.trans hfound
  rw [hk] at ha hiff
  have ha : report'.averageWidth = 15 := UInt32.toNat_inj.mp <| (ha (by decide)).trans <| by
    decide +kernel
  rw [ha] at hiff
  exact ⟨_, _, report', after', hr, hr', mt hiff.mp (by decide +kernel)⟩

end Passes

end PagePrep
