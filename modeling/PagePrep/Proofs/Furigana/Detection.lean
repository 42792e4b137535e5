import PagePrep.Furigana.Detection
import PagePrep.Proofs.Furigana.Line
import PagePrep.Proofs.Furigana.Run

-- The search for spans finds the first wide runs of good lines. What it does depends on the raster
-- only through the answers it gets for the lines, so most of this holds of every raster.

namespace PagePrep

def Span.totalGoodLines (good : Nat → Bool) : List Span → Nat
  | []        => 0
  | s :: rest => s.goodLines good + totalGoodLines good rest

theorem Span.totalGoodLines_append {good : Nat → Bool} {spans₁ spans₂ : List Span} :
    totalGoodLines good (spans₁ ++ spans₂) =
      totalGoodLines good spans₁ + totalGoodLines good spans₂ := by
  induction spans₁
  case nil          => simp [totalGoodLines]
  case cons _ _ ih  => simp [totalGoodLines, ih, Nat.add_assoc]

-- How many good lines a span has on average.
def Span.averageGoodLines (good : Nat → Bool) (spans : List Span) : Nat :=
  totalGoodLines good spans / spans.length

namespace Detection

theorem toNat_add_toUInt64 {a : UInt64} {b : UInt32} (h : a.toNat + b.toNat ≤ UInt32.size) :
    (a + b.toUInt64).toNat = a.toNat + b.toNat := by
  have : UInt32.size = 4294967296 := rfl
  rw [UInt64.toNat_add, UInt32.toNat_toUInt64, Nat.mod_eq_of_lt (by omega)]

section Reading

variable {R : Type} [BinaryRaster R] {raster : R} {axis : ScanAxis} {line minInk : UInt32}

-- Without any ink to ask for, the first pixel of ink is enough.
theorem le_add_one_iff {count : UInt32} (h : count.toNat + 1 < UInt32.size) :
    minInk ≤ count + 1 ↔ max 1 minInk.toNat ≤ count.toNat + 1 := by
  rw [UInt32.le_iff_toNat_le, toNat_add_one h, Nat.max_le]
  omega

-- The reading of a line ends early, but never with another answer than the count of all its ink.
theorem isGoodLine_eq (ink : Nat → Bool) {length : Nat} (hl : length < UInt32.size)
    (hr : ∀ pos : UInt32, pos.toNat < length →
      readInk raster (axis.point line pos) = .ok (ink pos.toNat)) :
    ∀ (rest : Nat) (pos count : UInt32), pos.toNat + rest = length → count.toNat ≤ pos.toNat →
      count.toNat < max 1 minInk.toNat →
      isGoodLine raster axis line minInk rest pos count =
        .ok (max 1 minInk.toNat ≤ count.toNat + (List.range' pos.toNat rest).countP ink)
  | 0, pos, count, _, _, hc => by
    simp [isGoodLine, Nat.not_le.mpr hc]
  | rest + 1, pos, count, hp, hle, hc => by
    have hp' : (pos + 1).toNat = pos.toNat + 1 := toNat_add_one (by omega)
    have hc' : (count + 1).toNat = count.toNat + 1 := toNat_add_one (by omega)
    have hm := @le_add_one_iff minInk count (by omega)
    rw [isGoodLine, hr pos (by omega), List.range'_succ, List.countP_cons]
    simp only [bind, Except.bind]
    cases ink pos.toNat
    case false =>
      rw [isGoodLine_eq ink hl hr rest (pos + 1) count (by omega) (by omega) hc, hp']
      rfl
    case true =>
      by_cases he : max 1 minInk.toNat ≤ count.toNat + 1
      case pos =>
        have hle := Nat.le_trans he <| Nat.add_le_add_left
          (Nat.le_add_left 1 ((List.range' (pos.toNat + 1) rest).countP ink)) count.toNat
        rw [if_pos rfl, if_pos (hm.mpr he), if_pos rfl, decide_eq_true hle]
        rfl
      case neg =>
        have hlt := Nat.lt_of_not_le he
        rw [if_pos rfl, if_neg (mt hm.mp he), if_pos rfl,
          isGoodLine_eq ink hl hr rest (pos + 1) (count + 1) (by omega) (by omega) (hc' ▸ hlt),
          hp', hc', Nat.add_right_comm, Nat.add_assoc]

-- Nothing but the answers for its pixels is asked of a line.
theorem isGoodLine_congr {R' : Type} [BinaryRaster R'] {raster' : R'} {length : Nat}
    (hl : length < UInt32.size)
    (hr : ∀ pos : UInt32, pos.toNat < length →
      readInk raster (axis.point line pos) = readInk raster' (axis.point line pos)) :
    ∀ (rest : Nat) (pos count : UInt32), pos.toNat + rest = length →
      isGoodLine raster axis line minInk rest pos count =
        isGoodLine raster' axis line minInk rest pos count
  | 0, _, _, _              => rfl
  | rest + 1, pos, count, hp => by
    have hp' := toNat_add_one (n := pos) (by omega)
    have ih := fun count => isGoodLine_congr hl hr rest (pos + 1) count (by omega)
    simp only [isGoodLine, hr pos (by omega), ih]

end Reading

variable {good : Nat → Bool} {lineCount capacity : Nat} {minWidth : UInt32}

-- What is found on a page with these lines. Without room for a span the search stops at the first
-- wide run, which it counts but can not keep.
structure Finds (good : Nat → Bool) (lineCount minWidth capacity : Nat) (d : Detection) : Prop where
  firstRuns    : FirstRuns good lineCount minWidth capacity d.spans.spans
  goodLines    : 0 < capacity → d.goodLines.toNat = Span.totalGoodLines good d.spans.spans
  goodLines_le : d.goodLines.toNat ≤ lineCount
  truncated    : 0 < capacity → (d.truncated ↔ d.spans.length = capacity ∧
    ∃ s ∈ d.spans.spans.getLast?, s.stop.toNat + 1 < lineCount)

namespace Scan

variable {s : Scan} {line run : UInt32}

-- What the state says about the lines in front of `line`.
structure Reached (good : Nat → Bool) (lineCount minWidth capacity line : Nat) (s : Scan) :
    Prop where
  idle         : s.start = none →
    s.run.toNat = 0 ∧ ∀ l, l + 1 = line → line < lineCount → good l = false
  inRun        : ∀ start ∈ s.start, start.toNat < line ∧ start.toNat + s.run.toNat = line ∧
    (∀ l, start.toNat ≤ l → l < line → good l) ∧ ∀ l, l + 1 = start.toNat → good l = false
  ordered      : s.spans.spans.Pairwise Span.Before
  mem_spans    : ∀ t, t ∈ s.spans.spans ↔
    t.IsWideRun good lineCount minWidth ∧ t.stop.toNat < line
  limit        : s.spans.capacity = capacity
  room         : s.spans.spans = [] ∨ s.spans.length < capacity
  goodLines    : s.goodLines.toNat = Span.totalGoodLines good s.spans.spans
  goodLines_le : s.goodLines.toNat + s.run.toNat ≤ line

namespace Reached

theorem init : (Scan.init ⟨[], capacity⟩).Reached good lineCount minWidth.toNat capacity 0 where
  idle _       := ⟨rfl, fun _ h => by omega⟩
  inRun _ h    := nomatch h
  ordered      := .nil
  mem_spans t  := by simp [Scan.init]
  limit        := rfl
  room         := .inl rfl
  goodLines    := rfl
  goodLines_le := Nat.le_refl _

variable (h : s.Reached good lineCount minWidth.toNat capacity line.toNat)
include h

theorem toNat_run_add_one (hl : line.toNat + 1 < UInt32.size) :
    (s.run + 1).toNat = s.run.toNat + 1 := by
  have := h.goodLines_le
  exact toNat_add_one (by omega)

theorem extend (hn : line.toNat + 1 < lineCount) (hs : lineCount < UInt32.size)
    (hg : good line.toNat) :
    (s.extend line).Reached good lineCount minWidth.toNat capacity (line.toNat + 1) where
  idle hs := nomatch hs
  inRun start hs := by
    have hrun := h.toNat_run_add_one (by omega)
    have hs : s.start.getD line = start := by simpa [Scan.extend] using hs
    simp only [Scan.extend, hrun]
    cases hs' : s.start
    case none =>
      have ⟨hr, hb⟩ := h.idle hs'
      rw [hs', Option.getD_none] at hs
      subst hs
      refine ⟨by omega, by omega, fun l _ _ => ?_, fun l hl => hb l hl (by omega)⟩
      have : l = line.toNat := by omega
      exact this ▸ hg
    case some a =>
      rw [hs', Option.getD_some] at hs
      subst hs
      have ⟨h₁, h₂, h₃, h₄⟩ := h.inRun a hs'
      refine ⟨by omega, by omega, fun l hl hl' => ?_, h₄⟩
      by_cases he : l = line.toNat
      case pos => exact he ▸ hg
      case neg => exact h₃ l hl (by omega)
  ordered := h.ordered
  mem_spans t := by
    rw [Scan.extend, h.mem_spans]
    refine and_congr_right fun ht => ⟨fun _ => by omega, fun hl => ?_⟩
    by_contra hc
    have he : t.stop.toNat = line.toNat := by omega
    have hb := ht.closed (he ▸ hn)
    simp [he, hg] at hb
  limit := h.limit
  room := h.room
  goodLines := h.goodLines
  goodLines_le := by
    have := h.goodLines_le
    simp only [Scan.extend, h.toNat_run_add_one (Nat.lt_trans hn hs)]
    omega

section Close

variable (hl : line.toNat < lineCount) (hb : line.toNat + 1 < lineCount → good line.toNat = false)
include hl hb

-- The run that is open, if there is one, is the only run that `line` closes.
theorem isRun_iff {t : Span} (ht : t.stop = line) :
    t.IsRun good lineCount ↔ s.start = some t.start := by
  subst ht
  constructor
  case mp =>
    intro ht
    have hlt := ht.start_lt
    cases hs : s.start
    case none =>
      have hg := ht.inside (t.stop.toNat - 1) (by omega) (by omega)
      simp [h.idle hs |>.right (t.stop.toNat - 1) (by omega) hl] at hg
    case some start =>
      have ⟨_, _, hi, ho⟩ := h.inRun start hs
      obtain hc | hc | hc := Nat.lt_trichotomy start.toNat t.start.toNat
      case inl =>
        have hg := hi (t.start.toNat - 1) (by omega) (by omega)
        simp [ht.opened (t.start.toNat - 1) (by omega)] at hg
      case inr.inl => rw [UInt32.toNat_inj.mp hc]
      case inr.inr =>
        have hg := ht.inside (start.toNat - 1) (by omega) (by omega)
        simp [ho (start.toNat - 1) (by omega)] at hg
  case mpr =>
    intro hs
    have ⟨h₁, _, h₃, h₄⟩ := h.inRun t.start hs
    exact { start_lt := h₁, stop_lt := hl, inside := h₃, opened := h₄, closed := hb }

theorem goodLines_eq {start : UInt32} (hs : s.start = some start) :
    Span.goodLines good ⟨start, line⟩ = s.run.toNat + (good line.toNat).toNat := by
  have ht := h.isRun_iff hl hb (t := ⟨start, line⟩) rfl |>.mpr hs
  have := h.inRun start hs
  rw [ht.goodLines_eq]
  simp only
  omega

omit hl in
theorem skip (hn : ∀ t : Span, t.stop = line → ¬t.IsWideRun good lineCount minWidth.toNat) :
    Reached good lineCount minWidth.toNat capacity (line.toNat + 1)
      ⟨none, 0, s.spans, s.goodLines⟩ where
  idle _ := ⟨rfl, fun l he hlt => Nat.succ.inj he ▸ hb hlt⟩
  inRun _ hs := nomatch hs
  ordered := h.ordered
  mem_spans t := by
    rw [h.mem_spans]
    refine and_congr_right fun ht => ⟨fun _ => by omega, fun hlt => ?_⟩
    by_contra hc
    exact hn t (UInt32.toNat_inj.mp (by omega)) ht
  limit := h.limit
  room := h.room
  goodLines := h.goodLines
  goodLines_le := Nat.le_succ_of_le <| Nat.le_trans (Nat.le_add_right ..) h.goodLines_le

section Push

variable {start : UInt32} (hs : s.start = some start)
include hs

section Count

variable (hn : lineCount < UInt32.size) (hr : run.toNat = Span.goodLines good ⟨start, line⟩)
include hn hr

theorem toNat_goodLines_add :
    (s.goodLines + run.toUInt64).toNat = s.goodLines.toNat + run.toNat ∧
      s.goodLines.toNat + run.toNat ≤ line.toNat + 1 := by
  have hle := h.goodLines_le
  have := (good line.toNat).toNat_le
  rw [h.goodLines_eq hl hb hs] at hr
  exact ⟨toNat_add_toUInt64 (by omega), by omega⟩

theorem toNat_goodLines_push :
    (s.goodLines + run.toUInt64).toNat =
      Span.totalGoodLines good (s.spans.spans ++ [⟨start, line⟩]) := by
  rw [h.toNat_goodLines_add hl hb hs hn hr |>.left, h.goodLines, hr, Span.totalGoodLines_append]
  rfl

theorem toNat_goodLines_add_le : (s.goodLines + run.toUInt64).toNat ≤ lineCount := by
  have ⟨he, hle⟩ := h.toNat_goodLines_add hl hb hs hn hr
  exact he ▸ Nat.le_trans hle hl

-- Without any room the first wide run ends the search, and is not kept.
theorem overflowed (hc : s.spans.isFull) :
    Finds good lineCount minWidth.toNat capacity
      ⟨s.spans, s.goodLines + run.toUInt64, line.toNat + 1 < lineCount⟩ := by
  have hf : capacity ≤ s.spans.length := by simpa [SpanList.isFull, h.limit] using hc
  have he : s.spans.spans = [] := h.room.resolve_right (Nat.not_lt.mpr hf)
  have hz : capacity = 0 := by simpa [SpanList.length, he] using hf
  exact {
    firstRuns    := { ordered := he ▸ .nil, sound := by simp [he], length_le := by simp [he],
                      complete := by simp [he, hz] }
    goodLines    := by omega
    goodLines_le := h.toNat_goodLines_add_le hl hb hs hn hr
    truncated    := by omega
  }

end Count

-- A wide run is put behind the spans that were found so far.
variable (hw : minWidth.toNat ≤ Span.goodLines good ⟨start, line⟩)
include hw

theorem isWideRun : Span.IsWideRun good lineCount minWidth.toNat ⟨start, line⟩ where
  toIsRun := h.isRun_iff hl hb rfl |>.mpr hs
  wide    := hw

theorem ordered_push : List.Pairwise Span.Before (s.spans.spans ++ [⟨start, line⟩]) := by
  refine List.pairwise_append.mpr ⟨h.ordered, List.pairwise_singleton .., fun t ht u hu => ?_⟩
  cases List.mem_singleton.mp hu
  have ⟨ht, htl⟩ := h.mem_spans t |>.mp ht
  have := ht.start_lt
  obtain hc | hc | hc := ht.toIsRun.trichotomy (h.isWideRun hl hb hs hw).toIsRun
  case inl     => exact hc
  case inr.inl => simp [hc] at htl
  case inr.inr =>
    have : line.toNat < t.start.toNat := hc
    omega

theorem mem_push {t : Span} :
    t ∈ s.spans.spans ++ [⟨start, line⟩] ↔
      t.IsWideRun good lineCount minWidth.toNat ∧ t.stop.toNat < line.toNat + 1 := by
  rw [List.mem_append, List.mem_singleton, h.mem_spans]
  constructor
  case mp =>
    intro ht
    cases ht
    case inl ht => exact ⟨ht.left, by omega⟩
    case inr ht => exact ht ▸ ⟨h.isWideRun hl hb hs hw, Nat.lt_succ_self _⟩
  case mpr =>
    intro ⟨ht, hlt⟩
    by_cases he : t.stop = line
    case pos =>
      have hs' := h.isRun_iff hl hb he |>.mp ht.toIsRun
      rw [hs, Option.some.injEq] at hs'
      exact .inr <| Span.ext_toNat (hs' ▸ rfl) (he ▸ rfl)
    case neg =>
      have := mt UInt32.toNat_inj.mp he
      exact .inl ⟨ht, by omega⟩

variable (hn : lineCount < UInt32.size) (hr : run.toNat = Span.goodLines good ⟨start, line⟩)
include hn hr

theorem pushed (hc : s.spans.length + 1 < capacity) :
    Reached good lineCount minWidth.toNat capacity (line.toNat + 1)
      ⟨none, 0, ⟨s.spans.spans ++ [⟨start, line⟩], s.spans.capacity⟩,
        s.goodLines + run.toUInt64⟩ where
  idle _       := ⟨rfl, fun l he hlt => Nat.succ.inj he ▸ hb hlt⟩
  inRun _ hs   := nomatch hs
  ordered      := h.ordered_push hl hb hs hw
  mem_spans t  := h.mem_push hl hb hs hw
  limit        := h.limit
  room         := .inr <| by simpa [SpanList.length] using hc
  goodLines    := h.toNat_goodLines_push hl hb hs hn hr
  goodLines_le := by
    have ⟨he, hle⟩ := h.toNat_goodLines_add hl hb hs hn hr
    rwa [he]

-- The list of spans is full, so what comes behind `line` is not looked at.
theorem filled (hc : s.spans.length + 1 = capacity) :
    Finds good lineCount minWidth.toNat capacity
      ⟨⟨s.spans.spans ++ [⟨start, line⟩], s.spans.capacity⟩, s.goodLines + run.toUInt64,
        line.toNat + 1 < lineCount⟩ where
  firstRuns := {
    ordered   := h.ordered_push hl hb hs hw
    sound     := fun t ht => h.mem_push hl hb hs hw |>.mp ht |>.left
    length_le := by simp [←hc, SpanList.length]
    complete  := fun t ht => by
      by_cases hlt : t.stop.toNat < line.toNat + 1
      case pos => exact .inl <| h.mem_push hl hb hs hw |>.mpr ⟨ht, hlt⟩
      case neg =>
        refine .inr ⟨by simp [←hc, SpanList.length], fun u hu => ?_⟩
        have ⟨hu, hul⟩ := h.mem_push hl hb hs hw |>.mp hu
        have := hu.start_lt
        obtain hc | hc | hc := hu.toIsRun.trichotomy ht.toIsRun
        case inl     => exact hc
        case inr.inl => exact absurd (hc ▸ hul) hlt
        case inr.inr => omega
  }
  goodLines _  := h.toNat_goodLines_push hl hb hs hn hr
  goodLines_le := h.toNat_goodLines_add_le hl hb hs hn hr
  truncated _  := by simp [←hc, SpanList.length]

end Push

-- What the line `line` leaves behind when it closes the open run.
theorem close (hn : lineCount < UInt32.size)
    (hr : run.toNat = s.run.toNat + (good line.toNat).toNat) :
    match s.close minWidth run line with
    | .next s' => s'.Reached good lineCount minWidth.toNat capacity (line.toNat + 1)
    | .stop s' => Finds good lineCount minWidth.toNat capacity
        ⟨s'.spans, s'.goodLines, line.toNat + 1 < lineCount⟩ := by
  unfold Scan.close
  cases hs : s.start
  case none =>
    refine h.skip hb fun t ht hw => ?_
    have := h.isRun_iff hl hb ht |>.mp hw.toIsRun
    simp [hs] at this
  case some start =>
    have hg := hr.trans (h.goodLines_eq hl hb hs).symm
    simp only
    by_cases hw : run < minWidth
    case pos =>
      rw [if_pos hw]
      refine h.skip hb fun t ht hwide => ?_
      have hs' := h.isRun_iff hl hb ht |>.mp hwide.toIsRun
      rw [hs, Option.some.injEq] at hs'
      have he : t = ⟨start, line⟩ := Span.ext_toNat (hs' ▸ rfl) (ht ▸ rfl)
      have := hwide.wide
      rw [UInt32.lt_iff_toNat_lt, hg, ←he] at hw
      omega
    case neg =>
      rw [if_neg hw]
      rw [UInt32.lt_iff_toNat_lt, hg, Nat.not_lt] at hw
      by_cases hf : s.spans.isFull
      case pos =>
        rw [SpanList.push_of_isFull hf, if_pos hf]
        exact h.overflowed hl hb hs hn hg hf
      case neg =>
        have hp : s.spans.push ⟨start, line⟩ =
            ⟨s.spans.spans ++ [⟨start, line⟩], s.spans.capacity⟩ := by simp [SpanList.push, hf]
        have hf : s.spans.length < capacity := by simpa [SpanList.isFull, h.limit] using hf
        rw [hp]
        by_cases hc : s.spans.length + 1 < capacity
        case pos =>
          rw [if_neg (by simpa [SpanList.isFull, SpanList.length, h.limit] using hc)]
          exact h.pushed hl hb hs hw hn hg hc
        case neg =>
          rw [if_pos (by simpa [SpanList.isFull, SpanList.length, h.limit] using hc)]
          exact h.filled hl hb hs hw hn hg (by omega)

end Close

theorem step (hl : line.toNat < lineCount) (hn : lineCount < UInt32.size) :
    match s.step minWidth line (good line.toNat) (line.toNat + 1 = lineCount) with
    | .next s' => s'.Reached good lineCount minWidth.toNat capacity (line.toNat + 1)
    | .stop s' => Finds good lineCount minWidth.toNat capacity
        ⟨s'.spans, s'.goodLines, line.toNat + 1 < lineCount⟩ := by
  cases hg : good line.toNat
  case false => exact h.close hl (fun _ => hg) hn (by simp [hg])
  case true =>
    by_cases he : line.toNat + 1 = lineCount
    case pos =>
      have hrun := h.toNat_run_add_one (by omega)
      simpa [Scan.step, he] using h.close hl (by omega) hn (by simp [hg, hrun])
    case neg =>
      simpa [Scan.step, he] using h.extend (by omega) hn hg

-- All lines have been looked at, and there is room left.
theorem finds (he : line.toNat = lineCount) :
    Finds good lineCount minWidth.toNat capacity ⟨s.spans, s.goodLines, false⟩ where
  firstRuns := {
    ordered   := h.ordered
    sound     := fun t ht => h.mem_spans t |>.mp ht |>.left
    length_le := by
      cases h.room
      case inl hr => simp [hr]
      case inr hr => exact Nat.le_of_lt hr
    complete  := fun t ht => .inl <| h.mem_spans t |>.mpr ⟨ht, he ▸ ht.stop_lt⟩
  }
  goodLines _  := h.goodLines
  goodLines_le := he ▸ Nat.le_trans (Nat.le_add_right ..) h.goodLines_le
  truncated _  := by
    cases h.room
    case inl hr => simp [hr]
    case inr hr => simp [Nat.ne_of_lt hr]

end Reached

end Scan

section Scanning

variable {R : Type} [BinaryRaster R] {raster : R} {axis : ScanAxis} {thresholds : SpanThresholds}
  {length : UInt32}

section Rest

variable {line rest : Nat} (h : line + (rest + 1) = lineCount)
include h

theorem last_eq : decide (line + 1 = lineCount) = (rest == 0) := by
  rw [Bool.eq_iff_iff]
  simp
  omega

theorem behind_eq : decide (line + 1 < lineCount) = (rest != 0) := by
  rw [Bool.eq_iff_iff]
  simp
  omega

end Rest

theorem scanFrom_finds (hn : lineCount < UInt32.size)
    (hg : ∀ line : UInt32, line.toNat < lineCount →
      isGoodLine raster axis line thresholds.minInk length.toNat 0 0 = .ok (good line.toNat)) :
    ∀ (rest : Nat) (line : UInt32) (s : Scan), line.toNat + rest = lineCount →
      s.Reached good lineCount thresholds.minWidth.toNat capacity line.toNat →
      ∃ d, scanFrom raster axis thresholds length rest line s = .ok d ∧
        d.Finds good lineCount thresholds.minWidth.toNat capacity
  | 0, line, s, he, h => ⟨_, rfl, h.finds he⟩
  | rest + 1, line, s, he, h => by
    have hs := h.step (by omega) hn
    rw [last_eq he, behind_eq he] at hs
    rw [scanFrom, hg line (by omega)]
    simp only [bind, Except.bind]
    cases hp : s.step thresholds.minWidth line (good line.toNat) (rest == 0)
    case next s' =>
      rw [hp] at hs
      have hl := toNat_add_one (n := line) (by omega)
      exact scanFrom_finds hn hg rest (line + 1) s' (by omega) (hl ▸ hs)
    case stop s' =>
      rw [hp] at hs
      exact ⟨_, rfl, hs⟩

-- Nothing but the answers for the lines is asked of a raster.
theorem scanFrom_congr {R' : Type} [BinaryRaster R'] {raster' : R'} {axis' : ScanAxis}
    (hn : lineCount < UInt32.size)
    (hg : ∀ line : UInt32, line.toNat < lineCount →
      isGoodLine raster axis line thresholds.minInk length.toNat 0 0 =
        isGoodLine raster' axis' line thresholds.minInk length.toNat 0 0) :
    ∀ (rest : Nat) (line : UInt32) (s : Scan), line.toNat + rest = lineCount →
      scanFrom raster axis thresholds length rest line s =
        scanFrom raster' axis' thresholds length rest line s
  | 0, _, _, _            => rfl
  | rest + 1, line, s, he => by
    have hl := toNat_add_one (n := line) (by omega)
    have ih := fun s => scanFrom_congr hn hg rest (line + 1) s (by omega)
    simp only [scanFrom, hg line (by omega), ih]

end Scanning

section Room

variable {R : Type} [BinaryRaster R] {raster : R} {axis : ScanAxis} {thresholds : SpanThresholds}

theorem detectSpans_of_reservable (hc : SpanList.Reservable capacity) :
    detectSpans raster axis thresholds capacity =
      (scan raster axis thresholds ⟨[], capacity⟩).mapError .raised := by
  rw [detectSpans, SpanList.withCapacity_eq_ok hc]
  rfl

-- No line of the raster is read.
theorem detectSpans_of_not_reservable (hc : ¬SpanList.Reservable capacity) :
    detectSpans raster axis thresholds capacity = .error (.panicked .capacityOverflow) := by
  rw [detectSpans, SpanList.withCapacity_eq_error hc]
  rfl

theorem detectSpans_congr {R' : Type} [BinaryRaster R'] {raster' : R'} {axis' : ScanAxis}
    (h : ∀ spans, scan raster axis thresholds spans = scan raster' axis' thresholds spans) :
    detectSpans raster axis thresholds capacity =
      detectSpans raster' axis' thresholds capacity := by
  by_cases hc : SpanList.Reservable capacity
  case pos => rw [detectSpans_of_reservable hc, detectSpans_of_reservable hc, h]
  case neg => rw [detectSpans_of_not_reservable hc, detectSpans_of_not_reservable hc]

theorem reservable_of_detectSpans {d : Detection}
    (hd : detectSpans raster axis thresholds capacity = .ok d) : SpanList.Reservable capacity := by
  by_contra hc
  cases (detectSpans_of_not_reservable hc).symm.trans hd

end Room

section Average

variable {d : Detection}

theorem max_one_le_goodLines {minWidth : Nat} {s : Span} (h : s.IsWideRun good lineCount minWidth) :
    max 1 minWidth ≤ s.goodLines good := by
  have hlt := h.start_lt
  have heq := h.toIsRun.goodLines_eq
  exact Nat.max_le.mpr ⟨by omega, h.wide⟩

theorem mul_length_le_totalGoodLines {spans : List Span} {m : Nat}
    (h : ∀ s ∈ spans, m ≤ s.goodLines good) :
    m * spans.length ≤ Span.totalGoodLines good spans := by
  induction spans
  case nil => exact Nat.le_refl _
  case cons s rest ih =>
    have ⟨hs, hr⟩ := List.forall_mem_cons.mp h
    have := ih hr
    simp only [List.length_cons, Span.totalGoodLines, Nat.mul_succ]
    omega

theorem length_le_totalGoodLines {spans : List Span} {minWidth : Nat}
    (h : ∀ s ∈ spans, s.IsWideRun good lineCount minWidth) :
    spans.length ≤ Span.totalGoodLines good spans :=
  Nat.le_trans (Nat.le_mul_of_pos_left _ (Nat.lt_of_lt_of_le Nat.zero_lt_one (Nat.le_max_left ..)))
    (mul_length_le_totalGoodLines fun s hs => max_one_le_goodLines (h s hs))

-- The counters are wide enough, so the average is the one of the natural numbers.
theorem Finds.averageWidth?_eq {minWidth : Nat} (h : d.Finds good lineCount minWidth capacity)
    (hn : lineCount < UInt32.size) (hs : d.spans.spans ≠ []) :
    ∃ average, d.averageWidth? = some average ∧
      average.toNat = Span.averageGoodLines good d.spans.spans := by
  have hle := length_le_totalGoodLines h.firstRuns.sound
  have hpos := List.length_pos_iff.mpr hs
  have htotal := h.goodLines (Nat.lt_of_lt_of_le hpos h.firstRuns.length_le)
  have hlt := Nat.lt_of_le_of_lt h.goodLines_le hn
  have hlen : (UInt64.ofNat d.spans.spans.length).toNat = d.spans.spans.length :=
    UInt64.toNat_ofNat_of_lt' <| Nat.lt_of_le_of_lt hle (htotal ▸ d.goodLines.toNat_lt)
  refine ⟨_, by simp only [averageWidth?, SpanList.isEmpty, List.isEmpty_iff, hs]; rfl, ?_⟩
  rw [UInt64.toNat_toUInt32, UInt64.toNat_div, SpanList.length, hlen, htotal]
  exact Nat.mod_eq_of_lt <| Nat.lt_of_le_of_lt (Nat.div_le_self ..) (htotal ▸ hlt)

theorem averageWidth?_eq_none (hs : d.spans.spans = []) : d.averageWidth? = none := by
  simp [averageWidth?, SpanList.isEmpty, hs]

end Average

section Page

variable {page : Page} {axis : ScanAxis} {thresholds : SpanThresholds}

theorem readInk_page {line pos : UInt32} (hl : line < page.lineCount axis)
    (hp : pos < page.lineLength axis) :
    readInk page (axis.point line pos) = .ok (page.onLine? axis line pos = some true) := by
  have hc := Page.contains_point_iff.mpr ⟨hl, hp⟩
  simp [readInk, BinaryRaster.pixel, Page.pixel, Page.onLine?, Grid.get?_eq_some_get hc]

theorem isGoodLine_page (minInk : UInt32) {line : UInt32} (hl : line < page.lineCount axis) :
    isGoodLine page axis line minInk (page.lineLength axis).toNat 0 0 =
      .ok (page.goodLine axis minInk line.toNat) := by
  let ink : Nat → Bool := fun pos => page.onLine? axis line (.ofNat pos) = some true
  have hr : ∀ pos : UInt32, pos.toNat < (page.lineLength axis).toNat →
      readInk page (axis.point line pos) = .ok (ink pos.toNat) := fun pos hp => by
    rw [readInk_page hl (UInt32.lt_iff_toNat_lt.mpr hp)]
    simp only [ink, UInt32.ofNat_toNat]
  have hm : 0 < max 1 minInk.toNat := Nat.lt_of_lt_of_le Nat.zero_lt_one (Nat.le_max_left ..)
  have h := isGoodLine_eq ink (page.lineLength axis).toNat_lt hr _ 0 0 (Nat.zero_add _)
    (Nat.le_refl _) hm
  simpa [Page.goodLine, Page.inkOnLine, List.range_eq_range', ink] using h

theorem scan_page (page : Page) (axis : ScanAxis) (thresholds : SpanThresholds) (capacity : Nat) :
    ∃ d, scan page axis thresholds ⟨[], capacity⟩ = .ok d ∧
      d.Finds (page.goodLine axis thresholds.minInk) (page.lineCount axis).toNat
        thresholds.minWidth.toNat capacity :=
  scanFrom_finds (page.lineCount axis).toNat_lt
    (fun _ hl => isGoodLine_page _ (UInt32.lt_iff_toNat_lt.mpr hl)) _ 0 _ (Nat.zero_add _) .init

theorem detectSpans_page (page : Page) (axis : ScanAxis) (thresholds : SpanThresholds)
    (hc : SpanList.Reservable capacity) :
    ∃ d, detectSpans page axis thresholds capacity = .ok d ∧
      d.Finds (page.goodLine axis thresholds.minInk) (page.lineCount axis).toNat
        thresholds.minWidth.toNat capacity := by
  obtain ⟨d, hd, h⟩ := scan_page page axis thresholds capacity
  refine ⟨d, ?_, h⟩
  rw [detectSpans_of_reservable hc, hd]
  rfl

theorem finds_of_detectSpans {d : Detection}
    (hd : detectSpans page axis thresholds capacity = .ok d) :
    d.Finds (page.goodLine axis thresholds.minInk) (page.lineCount axis).toNat
      thresholds.minWidth.toNat capacity := by
  have ⟨_, hd', h⟩ := detectSpans_page page axis thresholds (reservable_of_detectSpans hd)
  cases hd.symm.trans hd'
  exact h

theorem detectSpans_transpose :
    detectSpans (Grid.transpose page) .rows thresholds capacity =
      detectSpans page .columns thresholds capacity := by
  refine detectSpans_congr fun _ => ?_
  refine scanFrom_congr page.width.toNat_lt (fun line hl => ?_) _ 0 _ (Nat.zero_add _)
  have hl := UInt32.lt_iff_toNat_lt.mpr hl
  have hc : line < page.lineCount .columns := hl
  have hr : line < Page.lineCount page.transpose .rows := hl
  have he := isGoodLine_page thresholds.minInk hr
  rw [Page.goodLine_transpose, ←isGoodLine_page thresholds.minInk hc] at he
  exact he

end Page

end Detection

end PagePrep
