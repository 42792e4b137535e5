import Mathlib
import PagePrep.Proofs.Furigana.Detection

-- The spans of a page, told by its maximal runs of good lines. The search finds the first of the
-- runs that are long enough, except for a last line that is good while the line in front of it is
-- not: a run that only begins there is never opened.

namespace PagePrep

-- Consecutive lines.
structure Run where
  first  : Nat
  length : Nat
deriving DecidableEq, Repr

variable {good : Nat → Bool} {lineCount minWidth capacity : Nat} {r r' : Run} {s : Span}

namespace Run

-- The line behind the run.
def behind (r : Run) : Nat :=
  r.first + r.length

theorem behind_eq (r : Run) : r.behind = r.first + r.length :=
  rfl

-- A run that no good line can be added to, neither in front of it nor behind it.
structure IsMaximal (good : Nat → Bool) (lineCount : Nat) (r : Run) : Prop where
  length_pos : 0 < r.length
  behind_le  : r.behind ≤ lineCount
  inside     : ∀ line, r.first ≤ line → line < r.behind → good line
  opened     : ∀ line, line + 1 = r.first → good line = false
  closed     : r.behind < lineCount → good r.behind = false

-- The run up to the next bad line.
def starting (good : Nat → Bool) (lineCount first : Nat) : Run :=
  ⟨first, (List.range' first (lineCount - first)).findIdx (!good ·)⟩

def Starts (good : Nat → Bool) (line : Nat) : Prop :=
  good line ∧ (line = 0 ∨ good (line - 1) = false)

instance {line : Nat} : Decidable (Starts good line) :=
  inferInstanceAs (Decidable (_ ∧ _))

-- The line that closes the run stands for its end: the one behind it, or the last one of all.
def toSpan (lineCount : Nat) (r : Run) : Span :=
  ⟨.ofNat r.first, .ofNat (min r.behind (lineCount - 1))⟩

section Starting

variable {first : Nat}

theorem length_starting_le : (starting good lineCount first).length ≤ lineCount - first := by
  have h : (starting good lineCount first).length ≤
      (List.range' first (lineCount - first)).length := List.findIdx_le_length
  rwa [List.length_range'] at h

theorem good_of_lt_starting {i : Nat} (h : i < (starting good lineCount first).length) :
    good (first + i) := by
  have h := List.not_of_lt_findIdx h
  simpa using h

theorem not_good_starting (h : (starting good lineCount first).length < lineCount - first) :
    good (starting good lineCount first).behind = false := by
  have hl : (List.range' first (lineCount - first)).findIdx (!good ·) <
      (List.range' first (lineCount - first)).length := by
    rwa [List.length_range']
  have hb := @List.findIdx_getElem _ _ _ hl
  simpa [behind, starting] using hb

theorem isMaximal_starting (hf : first < lineCount) (hs : Starts good first) :
    (starting good lineCount first).IsMaximal good lineCount where
  length_pos := by
    by_contra hz
    have hz := Nat.eq_zero_of_not_pos hz
    have hb := not_good_starting (by omega : (starting good lineCount first).length < _)
    rw [behind_eq, hz] at hb
    simp [starting, hs.left] at hb
  behind_le := by
    have := @length_starting_le good lineCount first
    have : (starting good lineCount first).behind = first + _ := rfl
    omega
  inside line h₁ h₂ := by
    have h₁ : first ≤ line := h₁
    have h₂ : line < first + (starting good lineCount first).length := h₂
    have h := @good_of_lt_starting good lineCount first (line - first) (by omega)
    rwa [Nat.add_sub_cancel' h₁] at h
  opened line h := by
    have h : line + 1 = first := h
    cases hs.right
    case inl hz => omega
    case inr hb => rwa [←h] at hb
  closed h := by
    have h : first + (starting good lineCount first).length < lineCount := h
    exact not_good_starting (by omega)

end Starting

namespace IsMaximal

theorem starts (h : r.IsMaximal good lineCount) : Starts good r.first := by
  refine ⟨h.inside r.first (Nat.le_refl _) (Nat.lt_add_of_pos_right h.length_pos), ?_⟩
  by_cases hz : r.first = 0
  case pos => exact .inl hz
  case neg => exact .inr <| h.opened (r.first - 1) (by omega)

theorem first_lt (h : r.IsMaximal good lineCount) : r.first < lineCount :=
  Nat.lt_of_lt_of_le (Nat.lt_add_of_pos_right h.length_pos) h.behind_le

theorem not_length_lt (h : r.IsMaximal good lineCount) (h' : r'.IsMaximal good lineCount)
    (he : r.first = r'.first) : ¬r.length < r'.length := by
  intro hl
  have hle := h'.behind_le
  have hr := r.behind_eq
  have hr' := r'.behind_eq
  have hb := h.closed (by omega)
  have hg := h'.inside r.behind (by omega) (by omega)
  simp [hb] at hg

-- There is only one way to go on from the first line.
theorem eq_of_first_eq (h : r.IsMaximal good lineCount) (h' : r'.IsMaximal good lineCount)
    (he : r.first = r'.first) : r = r' := by
  have h₁ := h.not_length_lt h' he
  have h₂ := h'.not_length_lt h he.symm
  cases r
  cases r'
  simp_all only [mk.injEq, true_and]
  omega

end IsMaximal

end Run

-- All maximal runs of a page, in order.
def maximalRuns (good : Nat → Bool) (lineCount : Nat) : List Run :=
  ((List.range lineCount).filter (Run.Starts good ·)).map (Run.starting good lineCount)

-- Those with at least so many lines.
def wideRuns (good : Nat → Bool) (lineCount minWidth : Nat) : List Run :=
  (maximalRuns good lineCount).filter (minWidth ≤ ·.length)

theorem mem_maximalRuns_iff : r ∈ maximalRuns good lineCount ↔ r.IsMaximal good lineCount := by
  simp only [maximalRuns, List.mem_map, List.mem_filter, List.mem_range, decide_eq_true_eq]
  constructor
  case mp =>
    rintro ⟨first, ⟨hf, hs⟩, rfl⟩
    exact Run.isMaximal_starting hf hs
  case mpr =>
    intro h
    refine ⟨r.first, ⟨h.first_lt, h.starts⟩, ?_⟩
    exact Run.isMaximal_starting h.first_lt h.starts |>.eq_of_first_eq h rfl

theorem mem_wideRuns_iff :
    r ∈ wideRuns good lineCount minWidth ↔ r.IsMaximal good lineCount ∧ minWidth ≤ r.length := by
  simp [wideRuns, mem_maximalRuns_iff]

theorem ordered_maximalRuns : (maximalRuns good lineCount).Pairwise (·.first < ·.first) :=
  List.pairwise_map.mpr <| List.Pairwise.filter _ List.pairwise_lt_range

theorem ordered_wideRuns : (wideRuns good lineCount minWidth).Pairwise (·.first < ·.first) :=
  List.Pairwise.filter _ ordered_maximalRuns

-- The wide runs that are found: all but one that begins on the last line.
def openedRuns (good : Nat → Bool) (lineCount minWidth : Nat) : List Run :=
  (wideRuns good lineCount minWidth).filter (·.first + 1 < lineCount)

theorem mem_openedRuns_iff :
    r ∈ openedRuns good lineCount minWidth ↔
      r.IsMaximal good lineCount ∧ minWidth ≤ r.length ∧ r.first + 1 < lineCount := by
  simp [openedRuns, mem_wideRuns_iff, and_assoc]

theorem ordered_openedRuns : (openedRuns good lineCount minWidth).Pairwise (·.first < ·.first) :=
  List.Pairwise.filter _ ordered_wideRuns

-- No run begins on the last line if that line is bad or has a good one in front of it, and a run
-- that begins there is not wide if one line is too few.
theorem openedRuns_eq_wideRuns
    (h : (∀ line, line + 1 = lineCount → good line →
        ∃ front, front + 1 = line ∧ good front) ∨ 2 ≤ minWidth) :
    openedRuns good lineCount minWidth = wideRuns good lineCount minWidth := by
  refine List.filter_eq_self.mpr fun r hr => decide_eq_true ?_
  obtain ⟨hr, hw⟩ := mem_wideRuns_iff.mp hr
  have hlt := hr.first_lt
  by_contra hc
  cases h
  case inl h =>
    obtain ⟨front, hfront, hgood⟩ := h r.first (by omega) hr.starts.left
    simp [hr.opened front hfront] at hgood
  case inr h =>
    have hle := hr.behind_le
    have hb := r.behind_eq
    omega

namespace Run

section ToSpan

variable (hn : lineCount < UInt32.size) (h : r.IsMaximal good lineCount)
include hn h

theorem toNat_toSpan :
    (r.toSpan lineCount).start.toNat = r.first ∧
      (r.toSpan lineCount).stop.toNat = min r.behind (lineCount - 1) := by
  have hlt := h.first_lt
  exact ⟨UInt32.toNat_ofNat_of_lt' (by omega), UInt32.toNat_ofNat_of_lt' (by omega)⟩

variable (hl : r.first + 1 < lineCount)
include hl

theorem isRun_toSpan : (r.toSpan lineCount).IsRun good lineCount := by
  obtain ⟨hstart, hstop⟩ := toNat_toSpan hn h
  have hpos := h.length_pos
  have hb := r.behind_eq
  constructor
  case start_lt => omega
  case stop_lt  => omega
  case inside   => exact fun line h₁ h₂ => h.inside line (by omega) (by omega)
  case opened   => exact hstart ▸ h.opened
  case closed   =>
    intro hc
    have he : min r.behind (lineCount - 1) = r.behind := by omega
    rw [hstop, he] at hc ⊢
    exact h.closed (by omega)

-- A last line that closes the run is counted if it is good, and so is each line of the run.
theorem goodLines_toSpan : (r.toSpan lineCount).goodLines good = r.length := by
  obtain ⟨hstart, hstop⟩ := toNat_toSpan hn h
  have hb := r.behind_eq
  have hpos := h.length_pos
  rw [(isRun_toSpan hn h hl).goodLines_eq, hstart, hstop]
  obtain hc | hc := Nat.lt_or_eq_of_le h.behind_le
  case inl =>
    have he : min r.behind (lineCount - 1) = r.behind := by omega
    rw [he, h.closed hc, Bool.toNat_false]
    omega
  case inr =>
    have he : min r.behind (lineCount - 1) = lineCount - 1 := by omega
    rw [he, h.inside (lineCount - 1) (by omega) (by omega), Bool.toNat_true]
    omega

end ToSpan

section OfSpan

variable (h : s.IsRun good lineCount)
include h

-- The line that closes the span counts for its run if it is good, which only the last line can be.
theorem stop_of_isRun :
    (s.start.toNat + s.goodLines good = s.stop.toNat ∧ good s.stop.toNat = false) ∨
      (s.start.toNat + s.goodLines good = s.stop.toNat + 1 ∧ good s.stop.toNat = true ∧
        s.stop.toNat + 1 = lineCount) := by
  have hlt := h.start_lt
  have hstop := h.stop_lt
  have he := h.goodLines_eq
  cases hg : good s.stop.toNat
  case false =>
    rw [hg, Bool.toNat_false] at he
    exact .inl ⟨by omega, rfl⟩
  case true =>
    rw [hg, Bool.toNat_true] at he
    have hlast : ¬s.stop.toNat + 1 < lineCount := fun hl => by simp [h.closed hl] at hg
    exact .inr ⟨by omega, rfl, by omega⟩

theorem isMaximal_of_isRun : IsMaximal good lineCount ⟨s.start.toNat, s.goodLines good⟩ := by
  have hlt := h.start_lt
  have hstop := h.stop_lt
  have hb : behind ⟨s.start.toNat, s.goodLines good⟩ = s.start.toNat + s.goodLines good := rfl
  have hend := stop_of_isRun h
  constructor
  case length_pos => show 0 < s.goodLines good; omega
  case behind_le  => omega
  case opened     => exact h.opened
  case inside     =>
    intro line h₁ h₂
    rw [hb] at h₂
    by_cases hl : line < s.stop.toNat
    case pos => exact h.inside line h₁ hl
    case neg =>
      obtain ⟨he, -⟩ | ⟨he, hgood, -⟩ := hend
      · omega
      · exact (by omega : s.stop.toNat = line) ▸ hgood
  case closed =>
    intro hl
    rw [hb] at hl ⊢
    obtain ⟨he, hbad⟩ | ⟨he, -, hlast⟩ := hend
    · rwa [he]
    · omega

-- The run whose span it is.
theorem exists_of_isRun (hn : lineCount < UInt32.size) :
    ∃ r : Run, r.IsMaximal good lineCount ∧ r.first + 1 < lineCount ∧ r.toSpan lineCount = s := by
  have hlt := h.start_lt
  have hstop := h.stop_lt
  have hr := isMaximal_of_isRun h
  have hl : s.start.toNat + 1 < lineCount := by omega
  exact ⟨_, hr, hl, (isRun_toSpan hn hr hl).eq_of_start_eq h (UInt32.ofNat_toNat ..)⟩

end OfSpan

end Run

section FirstRuns

variable (hn : lineCount < UInt32.size)
include hn

theorem isWideRun_toSpan (h : r ∈ openedRuns good lineCount minWidth) :
    (r.toSpan lineCount).IsWideRun good lineCount minWidth := by
  obtain ⟨hr, hw, hl⟩ := mem_openedRuns_iff.mp h
  exact { toIsRun := Run.isRun_toSpan hn hr hl, wide := Run.goodLines_toSpan hn hr hl ▸ hw }

theorem before_toSpan (h : r ∈ openedRuns good lineCount minWidth)
    (h' : r' ∈ openedRuns good lineCount minWidth) (hlt : r.first < r'.first) :
    (r.toSpan lineCount).Before (r'.toSpan lineCount) := by
  refine (isWideRun_toSpan hn h).toIsRun.before (isWideRun_toSpan hn h').toIsRun ?_
  rw [(Run.toNat_toSpan hn (mem_openedRuns_iff.mp h).left).left,
    (Run.toNat_toSpan hn (mem_openedRuns_iff.mp h').left).left]
  exact hlt

theorem exists_openedRun (h : s.IsWideRun good lineCount minWidth) :
    ∃ r ∈ openedRuns good lineCount minWidth, r.toSpan lineCount = s := by
  obtain ⟨r, hr, hl, rfl⟩ := Run.exists_of_isRun h.toIsRun hn
  exact ⟨r, mem_openedRuns_iff.mpr ⟨hr, Run.goodLines_toSpan hn hr hl ▸ h.wide, hl⟩, rfl⟩

-- Any front part of the list that is as long as there is room for is what the search looks for.
theorem firstRuns_openedRuns :
    FirstRuns good lineCount minWidth capacity
      (((openedRuns good lineCount minWidth).take capacity).map (Run.toSpan lineCount)) where
  ordered := by
    refine List.pairwise_map.mpr <| (ordered_openedRuns.take).imp_of_mem fun hr hr' hlt => ?_
    exact before_toSpan hn (List.mem_of_mem_take hr) (List.mem_of_mem_take hr') hlt
  sound := by
    intro s hs
    obtain ⟨r, hr, rfl⟩ := List.mem_map.mp hs
    exact isWideRun_toSpan hn (List.mem_of_mem_take hr)
  length_le := by simp
  complete s hs := by
    obtain ⟨r, hr, rfl⟩ := exists_openedRun hn hs
    have hr' := hr
    rw [← List.take_append_drop capacity (openedRuns good lineCount minWidth)] at hr'
    cases List.mem_append.mp hr'
    case inl ht => exact .inl <| List.mem_map_of_mem ht
    case inr hd =>
      have hlen := List.length_pos_of_mem hd
      rw [List.length_drop] at hlen
      refine .inr ⟨by simp; omega, fun t ht => ?_⟩
      obtain ⟨r', hr', rfl⟩ := List.mem_map.mp ht
      have ho := @ordered_openedRuns good lineCount minWidth
      rw [← List.take_append_drop capacity (openedRuns good lineCount minWidth)] at ho
      exact before_toSpan hn (List.mem_of_mem_take hr') hr <|
        List.pairwise_append.mp ho |>.right.right r' hr' r hd

theorem totalGoodLines_map_toSpan {runs : List Run}
    (h : ∀ r ∈ runs, r ∈ openedRuns good lineCount minWidth) :
    Span.totalGoodLines good (runs.map (Run.toSpan lineCount)) = (runs.map Run.length).sum := by
  induction runs
  case nil => rfl
  case cons r runs ih =>
    obtain ⟨hr, hruns⟩ := List.forall_mem_cons.mp h
    obtain ⟨hr, _, hl⟩ := mem_openedRuns_iff.mp hr
    simp only [List.map_cons, Span.totalGoodLines, List.sum_cons, Run.goodLines_toSpan hn hr hl,
      ih hruns]

end FirstRuns

section Detection

variable {page : Page} {axis : ScanAxis} {thresholds : SpanThresholds}

-- What is found are the first opened runs, whatever the thresholds and the room.
theorem spans_detectSpans (page : Page) (axis : ScanAxis) (thresholds : SpanThresholds)
    (hroom : SpanList.Reservable capacity) (hc : 0 < capacity) :
    let runs := (openedRuns (page.goodLine axis thresholds.minInk) (page.lineCount axis).toNat
      thresholds.minWidth.toNat).take capacity
    ∃ d, detectSpans page axis thresholds capacity = .ok d ∧
      d.Finds (page.goodLine axis thresholds.minInk) (page.lineCount axis).toNat
        thresholds.minWidth.toNat capacity ∧
      d.spans.spans = runs.map (Run.toSpan (page.lineCount axis).toNat) ∧
      d.goodLines.toNat = (runs.map Run.length).sum := by
  intro runs
  obtain ⟨d, hd, hf⟩ := Detection.detectSpans_page page axis thresholds hroom
  have hn := (page.lineCount axis).toNat_lt
  have hs := hf.firstRuns.unique (firstRuns_openedRuns hn)
  refine ⟨d, hd, hf, hs, ?_⟩
  rw [hf.goodLines hc, hs]
  exact totalGoodLines_map_toSpan hn fun _ => List.mem_of_mem_take

-- The search finds the first wide runs of the page if no run begins on its last line, or if one
-- line is too few. It comes to no line without the room for as many spans as it may find.
theorem detectSpans_maximalRuns (page : Page) (axis : ScanAxis) (thresholds : SpanThresholds)
    (hc : 1 ≤ capacity)
    (hl : (∀ line, line + 1 = (page.lineCount axis).toNat →
        page.goodLine axis thresholds.minInk line →
        ∃ front, front + 1 = line ∧ page.goodLine axis thresholds.minInk front) ∨
      2 ≤ thresholds.minWidth.toNat) :
    let runs := (wideRuns (page.goodLine axis thresholds.minInk) (page.lineCount axis).toNat
      thresholds.minWidth.toNat).take capacity
    if SpanList.Reservable capacity then
      ∃ d, detectSpans page axis thresholds capacity = .ok d ∧
        d.spans.spans = runs.map (Run.toSpan (page.lineCount axis).toNat) ∧
        d.goodLines.toNat = (runs.map Run.length).sum ∧
        (d.truncated ↔ d.spans.length = capacity ∧
          ∃ s ∈ d.spans.spans.getLast?, s.stop.toNat + 1 ≠ (page.lineCount axis).toNat) ∧
        (∀ s ∈ d.spans.spans, s.start ≤ s.stop ∧ s.stop < page.lineCount axis) ∧
        d.spans.spans.Pairwise fun s t => s.stop < t.start
    else
      detectSpans page axis thresholds capacity = .error (.panicked .capacityOverflow) := by
  intro runs
  by_cases hroom : SpanList.Reservable capacity
  case neg =>
    rw [if_neg hroom]
    exact Detection.detectSpans_of_not_reservable hroom
  rw [if_pos hroom]
  obtain ⟨d, hd, hf, hs, hg⟩ := spans_detectSpans page axis thresholds hroom hc
  have hsound := hf.firstRuns.sound
  rw [openedRuns_eq_wideRuns hl] at hs hg
  refine ⟨d, hd, hs, hg, (hf.truncated hc).trans (and_congr_right fun _ => ?_), fun s hs => ?_, ?_⟩
  · refine exists_congr fun s => and_congr_right fun hm => ?_
    have hlt := (hsound s (List.mem_of_getLast? hm)).stop_lt
    omega
  · have hlt := (hsound s hs).start_lt
    exact ⟨UInt32.le_iff_toNat_le.mpr (Nat.le_of_lt hlt),
      UInt32.lt_iff_toNat_lt.mpr (hsound s hs).stop_lt⟩
  · exact hf.firstRuns.ordered.imp UInt32.lt_iff_toNat_lt.mpr

-- Three runs of columns, of three, two and four, the last up to the edge.
def edgeRuns : Page :=
  Grid.ofFn 12 2 fun x _ _ => x ≠ 3 ∧ x ≠ 4 ∧ x ≠ 7

theorem detectSpans_maximalRuns_edgeRuns :
    1 ≤ 2 ∧ 2 ≤ (3 : UInt32).toNat ∧
      ∃ d, detectSpans edgeRuns .columns ⟨2, 3⟩ 2 = .ok d ∧
        d.spans.spans = [⟨0, 3⟩, ⟨8, 11⟩] ∧ d.goodLines.toNat = 7 ∧ ¬d.truncated := by
  have hroom : SpanList.Reservable 2 := by decide
  have hfound := @detectSpans_maximalRuns 2 edgeRuns .columns ⟨2, 3⟩ (by decide) (.inr (by decide))
  obtain ⟨d, hd, hs, hg, ht, _⟩ := if_pos hroom ▸ hfound
  have hw : (wideRuns (edgeRuns.goodLine .columns 2) 12 3).take 2 = [⟨0, 3⟩, ⟨8, 4⟩] := by
    decide +kernel
  have hs : d.spans.spans = _ := hs.trans (congrArg (List.map (Run.toSpan 12)) hw)
  have hg : d.goodLines.toNat = _ := hg.trans (congrArg (fun runs => (runs.map Run.length).sum) hw)
  refine ⟨by decide, by decide, d, hd, hs, hg, fun h => ?_⟩
  obtain ⟨_, s, hlast, hstop⟩ := ht.mp h
  rw [hs] at hlast
  cases hlast
  exact hstop (by decide)

-- The lines of the page and the thresholds are as above, and still nothing is found.
theorem detectSpans_overflowing_capacity :
    1 ≤ 0x1000000000000000 ∧ 2 ≤ (3 : UInt32).toNat ∧
      detectSpans edgeRuns .columns ⟨2, 3⟩ 0x1000000000000000 =
        .error (.panicked .capacityOverflow) :=
  ⟨by decide, by decide, Detection.detectSpans_of_not_reservable (by decide)⟩

section FarEdge

variable {r : Run}

-- Nothing comes behind a run that reaches the last line.
theorem wideRuns_eq_append (h : r.IsMaximal good lineCount) (hb : r.behind = lineCount)
    (hw : minWidth ≤ r.length) :
    wideRuns good lineCount minWidth =
      (wideRuns good lineCount minWidth).filter (·.first < r.first) ++ [r] := by
  have ho := @ordered_wideRuns good lineCount minWidth
  obtain ⟨before, after, he⟩ := List.append_of_mem <| mem_wideRuns_iff.mpr ⟨h, hw⟩
  rw [he] at ho
  obtain ⟨_, hafter, hbefore⟩ := List.pairwise_append.mp ho
  have hnil : after = [] := by
    refine List.eq_nil_iff_forall_not_mem.mpr fun r' hr' => ?_
    have hm : r' ∈ wideRuns good lineCount minWidth := he ▸ by simp [hr']
    have hr'' := (mem_wideRuns_iff.mp hm).left
    have hlt : r.first < r'.first := List.rel_of_pairwise_cons hafter hr'
    have hlt' := hr''.first_lt
    have hgood := h.inside (r'.first - 1) (by omega) (by omega)
    simp [hr''.opened (r'.first - 1) (by omega)] at hgood
  subst hnil
  have hfilter : before.filter (·.first < r.first) = before :=
    List.filter_eq_self.mpr fun r' hr' => decide_eq_true <| hbefore r' hr' r List.mem_cons_self
  rw [he]
  simp [hfilter]

theorem openedRuns_eq_of_behind (h : r.IsMaximal good lineCount) (hb : r.behind = lineCount)
    (hw : minWidth ≤ r.length) :
    openedRuns good lineCount minWidth =
      if 1 < r.length then
        (wideRuns good lineCount minWidth).filter (·.first < r.first) ++ [r]
      else
        (wideRuns good lineCount minWidth).filter (·.first < r.first) := by
  have hlt := h.first_lt
  have hbr := r.behind_eq
  have hbefore : ((wideRuns good lineCount minWidth).filter (·.first < r.first)).filter
      (·.first + 1 < lineCount) =
        (wideRuns good lineCount minWidth).filter (·.first < r.first) := by
    refine List.filter_eq_self.mpr fun r' hr' => decide_eq_true ?_
    have := of_decide_eq_true (List.mem_filter.mp hr').right
    omega
  rw [openedRuns, wideRuns_eq_append h hb hw, List.filter_append, ← wideRuns_eq_append h hb hw,
    hbefore]
  split
  case isTrue hl  => rw [List.filter_cons_of_pos (by simp; omega), List.filter_nil]
  case isFalse hl => rw [List.filter_cons_of_neg (by simp; omega), List.filter_nil, List.append_nil]

theorem Run.IsMaximal.toSpan_eq {lines : UInt32} (h : r.IsMaximal good lines.toNat)
    (hb : r.behind = lines.toNat) : r.toSpan lines.toNat = ⟨.ofNat r.first, lines - 1⟩ := by
  have hlt := h.first_lt
  have hone : 1 ≤ lines := UInt32.le_iff_toNat_le.mpr (by rw [UInt32.toNat_one]; omega)
  refine Span.ext_toNat rfl ?_
  rw [(Run.toNat_toSpan lines.toNat_lt h).right, hb, UInt32.toNat_sub_of_le _ _ hone,
    UInt32.toNat_one]
  omega

-- A run up to the last line is found behind the wide runs in front of it if it has two lines or
-- more. The last line alone is no run for the search, even where one line is wide enough.
theorem detectSpans_farEdge (page : Page) (axis : ScanAxis) (thresholds : SpanThresholds)
    (hr : r.IsMaximal (page.goodLine axis thresholds.minInk) (page.lineCount axis).toNat)
    (hb : r.behind = (page.lineCount axis).toNat) (hw : thresholds.minWidth.toNat ≤ r.length)
    (hc : ((wideRuns (page.goodLine axis thresholds.minInk) (page.lineCount axis).toNat
      thresholds.minWidth.toNat).filter (·.first < r.first)).length < capacity) :
    let before := (wideRuns (page.goodLine axis thresholds.minInk) (page.lineCount axis).toNat
      thresholds.minWidth.toNat).filter (·.first < r.first)
    let found := if 1 < r.length then before ++ [r] else before
    if SpanList.Reservable capacity then
      ∃ d, detectSpans page axis thresholds capacity = .ok d ∧
        d.spans.spans = found.map (Run.toSpan (page.lineCount axis).toNat) ∧
        d.goodLines.toNat = (found.map Run.length).sum ∧
        (d.spans.spans.getLast? = some ⟨.ofNat r.first, page.lineCount axis - 1⟩ ↔
          1 < r.length)
    else
      detectSpans page axis thresholds capacity = .error (.panicked .capacityOverflow) := by
  intro before found
  by_cases hroom : SpanList.Reservable capacity
  case neg =>
    rw [if_neg hroom]
    exact Detection.detectSpans_of_not_reservable hroom
  rw [if_pos hroom]
  obtain ⟨d, hd, hf, hs, hg⟩ :=
    spans_detectSpans page axis thresholds hroom (Nat.zero_lt_of_lt hc)
  have hn := (page.lineCount axis).toNat_lt
  have hfound : found.length ≤ capacity := by
    simp only [found]
    split
    case isTrue  => simpa using hc
    case isFalse => exact Nat.le_of_lt hc
  rw [openedRuns_eq_of_behind hr hb hw, List.take_of_length_le hfound] at hs hg
  refine ⟨d, hd, hs, hg, ?_⟩
  rw [← hr.toSpan_eq hb]
  constructor
  case mp =>
    -- No span begins on the line that closes it.
    intro h
    have hlt := (hf.firstRuns.sound _ (List.mem_of_getLast? h)).start_lt
    rw [(Run.toNat_toSpan hn hr).left, (Run.toNat_toSpan hn hr).right] at hlt
    have hbr := r.behind_eq
    omega
  case mpr =>
    intro hl
    simp [hs, found, hl]

-- A run of three columns, and the last column.
def loneEdge : Page :=
  Grid.ofFn 5 2 fun x _ _ => x ≠ 3

-- The last column is a run that is wide enough, and is not found.
theorem detectSpans_farEdge_loneEdge :
    Run.IsMaximal (loneEdge.goodLine .columns 2) 5 ⟨4, 1⟩ ∧ (1 : UInt32).toNat ≤ 1 ∧
      ∃ d, detectSpans loneEdge .columns ⟨2, 1⟩ 50 = .ok d ∧ d.spans.spans = [⟨0, 3⟩] ∧
        d.goodLines.toNat = 3 ∧ d.spans.spans.getLast? ≠ some ⟨4, 4⟩ := by
  have hr : Run.IsMaximal (loneEdge.goodLine .columns 2) 5 ⟨4, 1⟩ :=
    mem_maximalRuns_iff.mp (by decide +kernel)
  have hw : (wideRuns (loneEdge.goodLine .columns 2) 5 1).filter (·.first < 4) = [⟨0, 3⟩] := by
    decide +kernel
  have hroom : SpanList.Reservable 50 := by decide
  have hfound := @detectSpans_farEdge 50 ⟨4, 1⟩ loneEdge .columns ⟨2, 1⟩ hr rfl (by decide)
    (lt_of_eq_of_lt (congrArg List.length hw) (by decide))
  obtain ⟨d, hd, hs, hg, hlast⟩ := if_pos hroom ▸ hfound
  have hs : d.spans.spans = _ := hs.trans (congrArg (List.map (Run.toSpan 5)) hw)
  have hg : d.goodLines.toNat = _ := hg.trans (congrArg (fun runs => (runs.map Run.length).sum) hw)
  exact ⟨hr, by decide, d, hd, hs, hg, fun h => absurd (hlast.mp h) (by decide)⟩

end FarEdge

end Detection

end PagePrep
