import PagePrep.Proofs.Furigana.Removal
import PagePrep.Raster.Faulty

-- On a raster with defects the removal ends at the first unreadable pixel that it comes to. If it
-- comes to none, it ends at the first band that it is not allowed to erase.

namespace PagePrep

section Reads

-- How many wide runs are closed in front of a line.
def closedRuns (good : Nat → Bool) (lineCount minWidth line : Nat) : Nat :=
  (List.range line).countP fun stop =>
    ∃ start < stop, Span.IsWideRun good lineCount minWidth ⟨.ofNat start, .ofNat stop⟩

theorem closedRuns_succ {good : Nat → Bool} {lineCount minWidth line : Nat} :
    closedRuns good lineCount minWidth (line + 1) = closedRuns good lineCount minWidth line +
      if ∃ start < line, Span.IsWideRun good lineCount minWidth ⟨.ofNat start, .ofNat line⟩ then 1
      else 0 := by
  simp only [closedRuns, List.range_succ, List.countP_append, List.countP_singleton,
    decide_eq_true_eq]

namespace Detection.Scan

variable {good : Nat → Bool} {lineCount capacity : Nat} {minWidth line run : UInt32} {s s' : Scan}

-- The search is stopped only by a wide run for which, or behind which, there is no room.
theorem close_eq_stop (hp : s.close minWidth run line = .stop s') :
    ∃ start, s.start = some start ∧ minWidth ≤ run ∧ s.spans.capacity ≤ s.spans.length + 1 := by
  unfold close at hp
  split at hp
  case h_1 => cases hp
  case h_2 start hs =>
    split at hp
    case isTrue => cases hp
    case isFalse hw =>
      refine ⟨start, hs, UInt32.not_lt.mp hw, ?_⟩
      by_cases hf : s.spans.isFull
      case pos => exact Nat.le_succ_of_le (by simpa [SpanList.isFull] using hf)
      case neg =>
        simp only [SpanList.isFull, SpanList.push_capacity, SpanList.length,
          SpanList.push_spans hf] at hp
        split at hp
        case isTrue hc => simpa [SpanList.length] using hc
        case isFalse   => cases hp

namespace Reached

variable (h : s.Reached good lineCount minWidth.toNat capacity line.toNat)
include h

-- No two spans share their last line, so the spans can be counted by these.
theorem closedRuns_eq :
    closedRuns good lineCount minWidth.toNat line.toNat = s.spans.length := by
  have hnodup : (s.spans.spans.map (·.stop.toNat)).Nodup := by
    refine List.pairwise_map.mpr <| h.ordered.imp_of_mem fun {t u} _ hu hl he => ?_
    have := (h.mem_spans u |>.mp hu).left.start_lt
    omega
  rw [closedRuns, List.countP_eq_length_filter, SpanList.length,
    ←List.length_map (fun t : Span => t.stop.toNat)]
  refine List.Perm.length_eq <| List.perm_ext_iff_of_nodup (List.nodup_range.filter _) hnodup
    |>.mpr fun stop => ?_
  simp only [List.mem_filter, List.mem_range, decide_eq_true_eq, List.mem_map, h.mem_spans]
  constructor
  case mp =>
    rintro ⟨hl, start, _, ht⟩
    have he : (UInt32.ofNat stop).toNat = stop :=
      UInt32.toNat_ofNat_of_lt' (Nat.lt_trans hl line.toNat_lt)
    exact ⟨_, ⟨ht, he.symm ▸ hl⟩, he⟩
  case mpr =>
    rintro ⟨t, ⟨ht, hl⟩, he⟩
    refine ⟨he ▸ hl, t.start.toNat, he ▸ ht.start_lt, ?_⟩
    simpa only [←he, UInt32.ofNat_toNat] using ht

theorem closedRuns_lt :
    closedRuns good lineCount minWidth.toNat line.toNat < max 1 capacity := by
  rw [h.closedRuns_eq, SpanList.length]
  cases h.room
  case inl hr => exact hr ▸ Nat.lt_of_lt_of_le Nat.zero_lt_one (Nat.le_max_left ..)
  case inr hr => exact Nat.lt_of_lt_of_le hr (Nat.le_max_right ..)

variable (hl : line.toNat < lineCount)
include hl

theorem le_closedRuns_of_close (hb : line.toNat + 1 < lineCount → good line.toNat = false)
    (hr : run.toNat = s.run.toNat + (good line.toNat).toNat)
    (hp : s.close minWidth run line = .stop s') :
    max 1 capacity ≤ closedRuns good lineCount minWidth.toNat (line.toNat + 1) := by
  obtain ⟨start, hs, hw, hc⟩ := close_eq_stop hp
  rw [UInt32.le_iff_toNat_le, hr, ←h.goodLines_eq hl hb hs] at hw
  have hwide := h.isWideRun hl hb hs hw
  have hclosed : ∃ start < line.toNat,
      Span.IsWideRun good lineCount minWidth.toNat ⟨.ofNat start, .ofNat line.toNat⟩ :=
    ⟨start.toNat, hwide.start_lt, by simpa only [UInt32.ofNat_toNat] using hwide⟩
  have := h.limit
  rw [closedRuns_succ, if_pos hclosed, h.closedRuns_eq]
  omega

-- What is behind a full list is not looked at.
theorem le_closedRuns_of_step (hn : lineCount < UInt32.size)
    (hp : s.step minWidth line (good line.toNat) (line.toNat + 1 = lineCount) = .stop s') :
    max 1 capacity ≤ closedRuns good lineCount minWidth.toNat (line.toNat + 1) := by
  cases hg : good line.toNat
  case false =>
    rw [hg] at hp
    exact h.le_closedRuns_of_close hl (fun _ => hg) (by simp [hg]) hp
  case true =>
    by_cases he : line.toNat + 1 = lineCount
    case pos =>
      have hrun := h.toNat_run_add_one (by omega)
      simp only [hg, he, decide_true, Scan.step] at hp
      exact h.le_closedRuns_of_close hl (by omega) (by simp [hg, hrun]) hp
    case neg =>
      simp only [hg, he, decide_false, Scan.step] at hp
      cases hp

end Reached

end Detection.Scan

namespace Page

variable {page : Page} {axis : ScanAxis} {minInk : UInt32} {thresholds : SpanThresholds}
  {line pos rest capacity : Nat}

def inkBefore (page : Page) (axis : ScanAxis) (line pos : Nat) : Nat :=
  (List.range pos).countP fun p => page.onLine? axis (.ofNat line) (.ofNat p) = some true

theorem inkBefore_succ (page : Page) (axis : ScanAxis) (line pos : Nat) :
    page.inkBefore axis line (pos + 1) = page.inkBefore axis line pos +
      if page.onLine? axis (.ofNat line) (.ofNat pos) = some true then 1 else 0 := by
  simp only [inkBefore, List.range_succ, List.countP_append, List.countP_singleton,
    decide_eq_true_eq]

theorem inkBefore_le (page : Page) (axis : ScanAxis) (line pos : Nat) :
    page.inkBefore axis line pos ≤ pos :=
  Nat.le_trans List.countP_le_length (Nat.le_of_eq List.length_range)

-- The pixels of a line from the position `pos` on, until the line is known to be good.
def lineReadsFrom (page : Page) (axis : ScanAxis) (minInk : UInt32) (line pos rest : Nat) :
    List (UInt32 × UInt32) :=
  ((List.range' pos rest).takeWhile fun pos =>
    page.inkBefore axis line pos < max 1 minInk.toNat).map fun pos =>
      axis.point (.ofNat line) (.ofNat pos)

theorem lineReadsFrom_succ (h : page.inkBefore axis line pos < max 1 minInk.toNat) :
    page.lineReadsFrom axis minInk line pos (rest + 1) =
      axis.point (.ofNat line) (.ofNat pos) ::
        page.lineReadsFrom axis minInk line (pos + 1) rest := by
  simp only [lineReadsFrom, List.range'_succ, List.takeWhile_cons, h, decide_true, if_true,
    List.map_cons]

theorem lineReadsFrom_of_good (h : max 1 minInk.toNat ≤ page.inkBefore axis line pos) :
    page.lineReadsFrom axis minInk line pos rest = [] := by
  cases rest
  case zero => rfl
  case succ =>
    simp only [lineReadsFrom, List.range'_succ, List.takeWhile_cons, Nat.not_lt.mpr h, decide_false,
      Bool.false_eq_true, if_false, List.map_nil]

-- The pixels from the line `line` on, until the list of spans is full. Without room for a span the
-- first wide run is the last.
def readsFrom (page : Page) (axis : ScanAxis) (thresholds : SpanThresholds)
    (capacity line rest : Nat) : List (UInt32 × UInt32) :=
  ((List.range' line rest).takeWhile fun line =>
    closedRuns (page.goodLine axis thresholds.minInk) (page.lineCount axis).toNat
      thresholds.minWidth.toNat line < max 1 capacity).flatMap fun line =>
        page.lineReadsFrom axis thresholds.minInk line 0 (page.lineLength axis).toNat

-- The pixels that are looked at in the search for spans, in order.
def reads (page : Page) (axis : ScanAxis) (thresholds : SpanThresholds) (capacity : Nat) :
    List (UInt32 × UInt32) :=
  page.readsFrom axis thresholds capacity 0 (page.lineCount axis).toNat

theorem readsFrom_succ
    (h : closedRuns (page.goodLine axis thresholds.minInk) (page.lineCount axis).toNat
      thresholds.minWidth.toNat line < max 1 capacity) :
    page.readsFrom axis thresholds capacity line (rest + 1) =
      page.lineReadsFrom axis thresholds.minInk line 0 (page.lineLength axis).toNat ++
        page.readsFrom axis thresholds capacity (line + 1) rest := by
  simp only [readsFrom, List.range'_succ, List.takeWhile_cons, h, decide_true, if_true,
    List.flatMap_cons]

theorem readsFrom_of_full
    (h : max 1 capacity ≤ closedRuns (page.goodLine axis thresholds.minInk)
      (page.lineCount axis).toNat thresholds.minWidth.toNat line) :
    page.readsFrom axis thresholds capacity line rest = [] := by
  cases rest
  case zero => rfl
  case succ =>
    simp only [readsFrom, List.range'_succ, List.takeWhile_cons, Nat.not_lt.mpr h, decide_false,
      Bool.false_eq_true, if_false, List.flatMap_nil]

end Page

end Reads

namespace Faulty

variable {f : Faulty Page} {p : UInt32 × UInt32} {ps qs : List (UInt32 × UInt32)}

-- What comes of reading some pixels in order.
def readAll (f : Faulty Page) (ps : List (UInt32 × UInt32)) : Except RemovalError Unit :=
  match ps.find? fun p => f.unreadable p.1 p.2 with
  | some p => .error (.pixelAccess p.1 p.2 (.outOfBounds p.1 p.2 f.readable.1 f.readable.2))
  | none   => .ok ()

theorem readAll_append : f.readAll (ps ++ qs) = (f.readAll ps >>= fun _ => f.readAll qs) := by
  simp only [readAll, List.find?_append]
  cases ps.find? fun p => f.unreadable p.1 p.2 <;> rfl

theorem readAll_cons : f.readAll (p :: ps) = (f.readAll [p] >>= fun _ => f.readAll ps) :=
  @readAll_append f [p] ps

theorem readInk_eq :
    Detection.readInk f p = (f.readAll [p] >>= fun _ => Detection.readInk f.raster p) := by
  by_cases h : f.unreadable p.1 p.2
  all_goals simp [Detection.readInk, BinaryRaster.pixel, pixel, readAll, h, bind, Except.bind]

section Reading

variable {axis : ScanAxis} {thresholds : SpanThresholds} {capacity : Nat}

-- `count` is the ink on the pixels that were read, so what tells that the line is good is also what
-- ends its list of pixels.
open Detection in
theorem isGoodLine_eq {line minInk : UInt32} (hl : line < f.raster.lineCount axis) :
    ∀ (rest : Nat) (pos count : UInt32),
      pos.toNat + rest = (f.raster.lineLength axis).toNat →
      count.toNat = f.raster.inkBefore axis line.toNat pos.toNat →
      count.toNat < max 1 minInk.toNat →
      isGoodLine f axis line minInk rest pos count =
        (f.readAll (f.raster.lineReadsFrom axis minInk line.toNat pos.toNat rest) >>=
          fun _ => isGoodLine f.raster axis line minInk rest pos count)
  | 0, pos, count, _, _, _ => rfl
  | rest + 1, pos, count, hp, hk, hc => by
    have hlen : _ < UInt32.size := (f.raster.lineLength axis).toNat_lt
    have hle := f.raster.inkBefore_le axis line.toNat pos.toNat
    have hp' := toNat_add_one (n := pos) (by omega)
    have hc' := toNat_add_one (n := count) (by omega)
    have hm := @le_add_one_iff minInk count (by omega)
    have hread := @readInk_page f.raster axis line pos hl (UInt32.lt_iff_toNat_lt.mpr (by omega))
    have hnext := f.raster.inkBefore_succ axis line.toNat pos.toNat
    rw [Page.lineReadsFrom_succ (hk ▸ hc), readAll_cons]
    simp only [isGoodLine, readInk_eq, UInt32.ofNat_toNat, hread] at hnext ⊢
    cases hu : f.readAll [axis.point line pos]
    case error e => rfl
    case ok =>
      by_cases hi : f.raster.onLine? axis line pos = some true
      case neg =>
        simp only [hi, bind, Except.bind, decide_false, if_false] at hnext ⊢
        have ih := isGoodLine_eq hl rest (pos + 1) count (by omega) (by rw [hp']; omega) hc
        rwa [hp'] at ih
      case pos =>
        simp only [hi, bind, Except.bind, decide_true, if_true] at hnext ⊢
        by_cases he : minInk ≤ count + 1
        case pos =>
          have hgood := hm.mp he
          rw [Page.lineReadsFrom_of_good (by omega)]
          simp only [he, if_true]
          rfl
        case neg =>
          have hlt := Nat.lt_of_not_le (mt hm.mpr he)
          have ih := isGoodLine_eq hl rest (pos + 1) (count + 1) (by omega)
            (by rw [hp', hc']; omega) (hc' ▸ hlt)
          simp only [he, if_false]
          rwa [hp'] at ih

theorem isGoodLine_eq_goodLine {line : UInt32} (minInk : UInt32)
    (hl : line < f.raster.lineCount axis) :
    Detection.isGoodLine f axis line minInk (f.raster.lineLength axis).toNat 0 0 =
      (f.readAll (f.raster.lineReadsFrom axis minInk line.toNat 0
          (f.raster.lineLength axis).toNat) >>=
        fun _ => .ok (f.raster.goodLine axis minInk line.toNat)) := by
  have hm : 0 < max 1 minInk.toNat := Nat.lt_of_lt_of_le Nat.zero_lt_one (Nat.le_max_left ..)
  rw [isGoodLine_eq hl _ 0 0 (Nat.zero_add _) rfl hm, UInt32.toNat_zero,
    Detection.isGoodLine_page minInk hl]

-- While the search goes on there is room, so the next line is on the list as well. Once it stops
-- there is none, and the list is at its end.
theorem scanFrom_eq :
    ∀ (rest : Nat) (line : UInt32) (s : Detection.Scan),
      line.toNat + rest = (f.raster.lineCount axis).toNat →
      s.Reached (f.raster.goodLine axis thresholds.minInk) (f.raster.lineCount axis).toNat
        thresholds.minWidth.toNat capacity line.toNat →
      Detection.scanFrom f axis thresholds (f.raster.lineLength axis) rest line s =
        (f.readAll (f.raster.readsFrom axis thresholds capacity line.toNat rest) >>= fun _ =>
          Detection.scanFrom f.raster axis thresholds (f.raster.lineLength axis) rest line s)
  | 0, line, s, _, _ => rfl
  | rest + 1, line, s, he, h => by
    have hcount : _ < UInt32.size := (f.raster.lineCount axis).toNat_lt
    have hl : line < f.raster.lineCount axis := UInt32.lt_iff_toNat_lt.mpr (by omega)
    have hline := toNat_add_one (n := line) (by omega)
    have hstep := h.step (by omega) hcount
    rw [Page.readsFrom_succ h.closedRuns_lt, readAll_append]
    simp only [Detection.scanFrom, isGoodLine_eq_goodLine _ hl, Detection.isGoodLine_page _ hl]
    rw [Detection.last_eq he] at hstep
    cases f.readAll (f.raster.lineReadsFrom axis thresholds.minInk line.toNat 0
      (f.raster.lineLength axis).toNat)
    case error e => rfl
    case ok =>
      simp only [bind, Except.bind]
      cases hp : s.step thresholds.minWidth line
        (f.raster.goodLine axis thresholds.minInk line.toNat) (rest == 0)
      case next s' =>
        rw [hp] at hstep
        have ih := scanFrom_eq rest (line + 1) s' (by omega) (hline ▸ hstep)
        rwa [hline] at ih
      case stop s' =>
        have hfull := h.le_closedRuns_of_step (by omega) hcount ((Detection.last_eq he).symm ▸ hp)
        rw [Page.readsFrom_of_full hfull]
        rfl

-- The search for spans is that on the raster inside, unless it comes to an unreadable pixel.
theorem detectSpans_eq (hc : SpanList.Reservable capacity) :
    detectSpans f axis thresholds capacity =
      ((f.readAll (f.raster.reads axis thresholds capacity)).mapError .raised >>= fun _ =>
        detectSpans f.raster axis thresholds capacity) := by
  have hs : Detection.scan f axis thresholds ⟨[], capacity⟩ =
      (f.readAll (f.raster.reads axis thresholds capacity) >>= fun _ =>
        Detection.scan f.raster axis thresholds ⟨[], capacity⟩) :=
    scanFrom_eq _ 0 _ (Nat.zero_add _) .init
  rw [Detection.detectSpans_of_reservable hc, Detection.detectSpans_of_reservable hc, hs]
  cases f.readAll (f.raster.reads axis thresholds capacity) <;> rfl

end Reading

section Erasing

variable {page : Page} {axis : ScanAxis} {unreadable : UInt32 → UInt32 → Bool}
  {readable : UInt32 × UInt32} {clears : Nat} {bands : List Band}

theorem clearRect_of_ok {R : Type} [BinaryRaster R] {raster after : R} {rect : Rect}
    (h : BinaryRaster.clearRect raster rect = (.ok (), after)) :
    BinaryRaster.clearRect (⟨raster, unreadable, readable, some (clears + 1)⟩ : Faulty R) rect =
      (.ok (), ⟨after, unreadable, readable, some clears⟩) := by
  simp only [BinaryRaster.clearRect, clearRect] at h ⊢
  simp [h]

-- The bands that are left stay as they were.
theorem eraseBands_eq (hb : ∀ b ∈ bands, page.Accepts axis b) :
    eraseBands axis bands (⟨page, unreadable, readable, some clears⟩ : Faulty Page) =
      match bands[clears]? with
      | some band =>
        (.error (.eraseRectangle band.offset band.extent
            (.invalidRect (axis.bandRect band page.width page.height) 0 0)),
          ⟨page.blanked axis fun line => ∃ b ∈ bands.take clears, b.Covers line,
            unreadable, readable, some 0⟩)
      | none      =>
        (.ok (), ⟨page.blanked axis fun line => ∃ b ∈ bands, b.Covers line,
          unreadable, readable, some (clears - bands.length)⟩) := by
  induction bands generalizing page clears
  case nil => simp [eraseBands, Page.blanked_none]
  case cons b rest ih =>
    obtain ⟨hb, hr⟩ := List.forall_mem_cons.mp hb
    cases clears
    case zero =>
      simp [eraseBands, eraseBand, BinaryRaster.clearRect, BinaryRaster.width, BinaryRaster.height,
        clearRect, Page.blanked_none]
    case succ clears =>
      have he : eraseBand axis b (⟨page, unreadable, readable, some (clears + 1)⟩ : Faulty Page) =
          (.ok (), ⟨page.blanked axis fun line => b.Covers line, unreadable, readable,
            some clears⟩) :=
        eraseBand_eq_ok_iff.mpr <| clearRect_of_ok <| eraseBand_eq_ok_iff.mp <| eraseBand_page hb
      have ih := @ih (page.blanked axis fun line => b.Covers line) clears hr
      rw [eraseBands, he]
      simp only [ih, Page.blanked_blanked, List.getElem?_cons_succ, List.take_succ_cons,
        List.length_cons, List.mem_cons, exists_eq_or_imp, Bool.decide_or, Nat.add_sub_add_right,
        Page.width_blanked, Page.height_blanked]

end Erasing

end Faulty

section Removing

variable {page : Page} {o : RemovalOptions} {orientation : Orientation}
  {thresholds : SpanThresholds} {d : Detection}

-- The pixels that the search reads are all that is read.
theorem Faulty.removeFurigana_eq {f : Faulty Page} (ht : o.thresholds = .ok thresholds)
    (hd : detectSpans f.raster orientation.scanAxis thresholds o.maxSpans.toNat = .ok d) :
    removeFurigana o orientation f =
      match f.readAll (f.raster.reads orientation.scanAxis thresholds o.maxSpans.toNat) with
      | .error e => (.error (.raised e), f)
      | .ok _    =>
        (eraseBands orientation.scanAxis
          (d.report (f.raster.lineCount orientation.scanAxis) o.keepRatio).bands f).map
            (fun r => (r.mapError .raised).map fun _ =>
              d.report (f.raster.lineCount orientation.scanAxis) o.keepRatio) id := by
  have hdetect := @detectSpans_eq f orientation.scanAxis thresholds o.maxSpans.toNat
    (Detection.reservable_of_detectSpans hd)
  rw [hd] at hdetect
  cases hr : f.readAll (f.raster.reads orientation.scanAxis thresholds o.maxSpans.toNat)
  case error e =>
    rw [hr] at hdetect
    simp only [removeFurigana, ht, hdetect, bind, Except.bind, Except.mapError]
  case ok =>
    rw [hr] at hdetect
    exact removeFurigana_eq_eraseBands rfl ht hdetect (Detection.finds_of_detectSpans hd)

-- Without defects the removal would give `report` and `after`. A pixel that is not read does no
-- harm, and the bands in front of one that is refused are gone from the page. Without the room for
-- so many spans the removal comes to no defect.
theorem removeFurigana_faulty (h : o.magnification.isFinite ∧ 0 < o.magnification)
    (unreadable : UInt32 → UInt32 → Bool) (readable : UInt32 × UInt32) (clears : Nat) :
    if SpanList.Reservable o.maxSpans.toNat then
      ∃ thresholds report after,
        o.thresholds = .ok thresholds ∧
        removeFurigana o orientation page = (.ok report, after) ∧
        removeFurigana o orientation (⟨page, unreadable, readable, some clears⟩ : Faulty Page) =
          match (page.reads orientation.scanAxis thresholds o.maxSpans.toNat).find? fun p =>
            unreadable p.1 p.2 with
          | some (x, y) =>
            (.error (.raised (.pixelAccess x y (.outOfBounds x y readable.1 readable.2))),
              ⟨page, unreadable, readable, some clears⟩)
          | none        =>
            match report.bands[clears]? with
            | some band =>
              (.error (.raised (.eraseRectangle band.offset band.extent
                  (.invalidRect (orientation.scanAxis.bandRect band page.width page.height) 0 0))),
                ⟨page.blanked orientation.scanAxis fun line =>
                  ∃ b ∈ report.bands.take clears, b.Covers line, unreadable, readable, some 0⟩)
            | none      =>
              (.ok report, ⟨after, unreadable, readable, some (clears - report.bands.length)⟩)
    else
      removeFurigana o orientation page = (.error (.panicked .capacityOverflow), page) ∧
        removeFurigana o orientation (⟨page, unreadable, readable, some clears⟩ : Faulty Page) =
          (.error (.panicked .capacityOverflow), ⟨page, unreadable, readable, some clears⟩) := by
  split
  case isTrue hc =>
    obtain ⟨thresholds, d, ht, hd, hr⟩ := exists_removeFurigana page orientation h hc
    have hf := Detection.finds_of_detectSpans hd
    have haccepts := hf.accepts_bands o.keepRatio
    have hblanked := hf.eraseBands_report o.keepRatio
    rw [eraseBands_page haccepts, Prod.mk.injEq] at hblanked
    refine ⟨thresholds, _, _, ht, hr, ?_⟩
    rw [Faulty.removeFurigana_eq ht hd, Faulty.eraseBands_eq haccepts, Faulty.readAll]
    cases (page.reads orientation.scanAxis thresholds o.maxSpans.toNat).find? fun p =>
      unreadable p.1 p.2
    case some _ => rfl
    case none   =>
      simp only [hblanked.right]
      cases (d.report (page.lineCount orientation.scanAxis) o.keepRatio).bands[clears]? <;> rfl
  case isFalse hc =>
    have ⟨_, ht⟩ := o.exists_thresholds h
    exact ⟨removeFurigana_of_not_reservable _ ht hc, removeFurigana_of_not_reservable _ ht hc⟩

-- A run of three columns between two of one column, all of the ink in the upper row.
def narrowRuns : Page :=
  Grid.ofFn 8 2 fun x y _ => y = 0 ∧ x ≠ 1 ∧ x ≠ 5 ∧ x ≠ 7

def narrowOptions : RemovalOptions where
  minInk    := 1
  minWidth  := 1
  keepRatio := 3

-- The lower row of a good column is not read. The columns on the left are erased, those on the
-- right are not.
theorem removeFurigana_faulty_narrowRuns :
    removeFurigana narrowOptions .vertical
        (⟨narrowRuns, fun x y => x = 2 ∧ y = 1, (8, 2), some 1⟩ : Faulty Page) =
      (.error (.raised (.eraseRectangle 6 2 (.invalidRect ⟨6, 0, 2, 2⟩ 0 0))),
        ⟨narrowRuns.blanked .columns fun line => ∃ b ∈ [Band.mk 0 2], b.Covers line,
          fun x y => x = 2 ∧ y = 1, (8, 2), some 0⟩) := by
  have hroom : SpanList.Reservable narrowOptions.maxSpans.toNat := by decide
  have hfaulty := @removeFurigana_faulty narrowRuns narrowOptions .vertical (by decide +kernel)
    (fun x y => x = 2 ∧ y = 1) (8, 2) 1
  obtain ⟨thresholds, report, _, ht, hr, h⟩ := if_pos hroom ▸ hfaulty
  have ht' : narrowOptions.thresholds = .ok ⟨1, 1⟩ := by decide +kernel
  have hr' : (removeFurigana narrowOptions .vertical narrowRuns).1 =
      .ok ⟨3, 1, 1, [⟨0, 2⟩, ⟨6, 2⟩], false⟩ := by decide +kernel
  have hread : (narrowRuns.reads Orientation.vertical.scanAxis ⟨1, 1⟩
      narrowOptions.maxSpans.toNat).find? (fun p => p.1 = 2 ∧ p.2 = 1) = none := by decide +kernel
  cases ht.symm.trans ht'
  cases (congrArg Prod.fst hr).symm.trans hr'
  rw [hread] at h
  exact h

end Removing

end PagePrep
