import PagePrep.Proofs.Furigana.Removal
import PagePrep.Proofs.Number.Word

-- The removal with every sum and difference taken in the natural numbers. It has no result where
-- one of them does not fit into its word. On a page this never happens.

namespace PagePrep

namespace Exact

section Detecting

open Detection

variable {R : Type} [BinaryRaster R]

def isGoodLine? (raster : R) (axis : ScanAxis) (line minInk : UInt32) :
    (rest : Nat) → (pos count : UInt32) → Option (Except RemovalError Bool)
  | 0,        _,   _     => some (.ok false)
  | rest + 1, pos, count =>
    match readInk raster (axis.point line pos) with
    | .error e   => some (.error e)
    | .ok false  => do isGoodLine? raster axis line minInk rest (← add? pos 1) count
    | .ok true   => do
      let count ← add? count 1
      if minInk ≤ count then
        return .ok true
      else
        isGoodLine? raster axis line minInk rest (← add? pos 1) count

def extend? (s : Scan) (line : UInt32) : Option Scan := do
  return { s with start := s.start.getD line, run := ← add? s.run 1 }

def close? (minWidth run line : UInt32) (s : Scan) : Option Progress :=
  match s.start with
  | none       => some (.next { s with run := 0 })
  | some start => do
    if run < minWidth then
      return .next { s with start := none, run := 0 }
    else
      let spans := s.spans.push ⟨start, line⟩
      let found := ⟨none, 0, spans, ← word64? (s.goodLines.toNat + run.toNat)⟩
      return if spans.isFull then .stop found else .next found

def step? (minWidth line : UInt32) (good last : Bool) (s : Scan) : Option Progress :=
  match good, last with
  | true, false => do return .next (← extend? s line)
  | true, true  => do close? minWidth (← add? s.run 1) line s
  | false, _    => close? minWidth s.run line s

def scanFrom? (raster : R) (axis : ScanAxis) (thresholds : SpanThresholds)
    (length lineCount : UInt32) :
    (rest : Nat) → (line : UInt32) → Scan → Option (Except RemovalError Detection)
  | 0,        _,    s => some (.ok ⟨s.spans, s.goodLines, false⟩)
  | rest + 1, line, s => do
    match ← isGoodLine? raster axis line thresholds.minInk length.toNat 0 0 with
    | .error e => return .error e
    | .ok good =>
      let behind ← add? line 1
      match ← step? thresholds.minWidth line good (line = (← sub? lineCount 1)) s with
      | .next s => scanFrom? raster axis thresholds length lineCount rest behind s
      | .stop s => return .ok ⟨s.spans, s.goodLines, behind < lineCount⟩

def scan? (raster : R) (axis : ScanAxis) (thresholds : SpanThresholds) (spans : SpanList) :
    Option (Except RemovalError Detection) :=
  let lineCount := axis.lineCount (BinaryRaster.width raster) (BinaryRaster.height raster)
  let length := axis.lineLength (BinaryRaster.width raster) (BinaryRaster.height raster)
  scanFrom? raster axis thresholds length lineCount lineCount.toNat 0 (.init spans)

def detectSpans? (raster : R) (axis : ScanAxis) (thresholds : SpanThresholds) (capacity : Nat) :
    Option (Except (Failure RemovalError) Detection) :=
  match SpanList.withCapacity capacity with
  | .error p  => some (.error (.panicked p))
  | .ok spans => (scan? raster axis thresholds spans).map (·.mapError .raised)

-- There is no more ink on a line than there are pixels.
theorem isGoodLine?_eq {raster : R} {axis : ScanAxis} {line minInk : UInt32} :
    ∀ (rest : Nat) (pos count : UInt32), pos.toNat + rest < UInt32.size →
      count.toNat ≤ pos.toNat →
      isGoodLine? raster axis line minInk rest pos count =
        some (isGoodLine raster axis line minInk rest pos count)
  | 0, _, _, _, _ => rfl
  | rest + 1, pos, count, hp, hc => by
    have hp' := toNat_add_one (n := pos) (by omega)
    have hc' := toNat_add_one (n := count) (by omega)
    have hpos := add?_one (a := pos) (by omega)
    have hcount := add?_one (a := count) (by omega)
    rw [isGoodLine?, isGoodLine]
    cases readInk raster (axis.point line pos)
    case error e => rfl
    case ok ink =>
      cases ink
      case false =>
        simp only [hpos, bind, Option.bind, Except.bind]
        exact isGoodLine?_eq rest (pos + 1) count (by omega) (by omega)
      case true =>
        simp only [hpos, hcount, bind, Option.bind, Except.bind, if_true]
        by_cases he : minInk ≤ count + 1
        case pos => simp only [he, if_true]; rfl
        case neg =>
          simp only [he, if_false]
          exact isGoodLine?_eq rest (pos + 1) (count + 1) (by omega) (by omega)

section Counted

variable {s s' : Scan} {minWidth run line : UInt32} {good last : Bool}

-- No line in front of `line` is counted twice.
def Counted (line : Nat) (s : Scan) : Prop :=
  s.goodLines.toNat + s.run.toNat ≤ line

theorem close?_eq (h : s.goodLines.toNat + run.toNat ≤ UInt32.size) :
    close? minWidth run line s = some (s.close minWidth run line) := by
  rw [close?, Scan.close, ←toNat_add_toUInt64 h, word64?_toNat]
  cases s.start
  case none => rfl
  case some => by_cases hw : run < minWidth <;> simp [hw]

theorem counted_of_close {count : Nat} (hc : s.goodLines.toNat + run.toNat ≤ count)
    (h : count ≤ UInt32.size) (hs : s.close minWidth run line = .next s') : Counted count s' := by
  have hsum := toNat_add_toUInt64 (Nat.le_trans hc h)
  unfold Scan.close at hs
  split at hs
  case h_1 =>
    cases hs
    simp only [Counted, UInt32.toNat_zero]
    omega
  case h_2 =>
    split at hs
    case isTrue =>
      cases hs
      simp only [Counted, UInt32.toNat_zero]
      omega
    case isFalse =>
      simp only at hs
      split at hs
      case isTrue => cases hs
      case isFalse =>
        cases hs
        simp only [Counted, hsum, UInt32.toNat_zero]
        omega

variable (h : Counted line.toNat s) (hl : line.toNat + 1 < UInt32.size)
include h hl

theorem toNat_run_add_one : (s.run + 1).toNat = s.run.toNat + 1 := by
  simp only [Counted] at h
  exact toNat_add_one (by omega)

theorem step?_eq : step? minWidth line good last s = some (s.step minWidth line good last) := by
  have hrun := toNat_run_add_one h hl
  simp only [Counted] at h
  have hadd := add?_one (a := s.run) (by omega)
  cases good
  case false => exact close?_eq (by omega)
  case true =>
    cases last
    case false => simp [step?, Scan.step, extend?, Scan.extend, hadd]
    case true =>
      simp only [step?, hadd]
      exact close?_eq (by omega)

theorem counted_of_step (hs : s.step minWidth line good last = .next s') :
    Counted (line.toNat + 1) s' := by
  have hrun := toNat_run_add_one h hl
  simp only [Counted] at h
  cases good
  case false => exact counted_of_close (by omega) (by omega) hs
  case true =>
    cases last
    case false =>
      cases hs
      simp only [Counted, Scan.extend]
      omega
    case true => exact counted_of_close (by omega) (by omega) hs

end Counted

theorem scanFrom?_eq {raster : R} {axis : ScanAxis} {thresholds : SpanThresholds}
    {length lineCount : UInt32} :
    ∀ (rest : Nat) (line : UInt32) (s : Scan), line.toNat + rest = lineCount.toNat →
      Counted line.toNat s →
      scanFrom? raster axis thresholds length lineCount rest line s =
        some (scanFrom raster axis thresholds length rest line s)
  | 0, _, _, _, _ => rfl
  | rest + 1, line, s, he, h => by
    have hcount : _ < UInt32.size := lineCount.toNat_lt
    have hline := toNat_add_one (n := line) (by omega)
    have hadd := add?_one (a := line) (by omega)
    have hone : (1 : UInt32).toNat ≤ lineCount.toNat := by
      rw [UInt32.toNat_one]
      omega
    have hlast : decide (line = lineCount - 1) = (rest == 0) := by
      rw [←last_eq he, decide_eq_decide, ←UInt32.toNat_inj,
        UInt32.toNat_sub_of_le _ _ (UInt32.le_iff_toNat_le.mpr hone), UInt32.toNat_one]
      omega
    have hbehind : decide (line + 1 < lineCount) = (rest != 0) := by
      rw [←behind_eq he, decide_eq_decide, UInt32.lt_iff_toNat_lt, hline]
    have hlength : UInt32.toNat 0 + length.toNat < UInt32.size := by
      rw [UInt32.toNat_zero, Nat.zero_add]
      exact length.toNat_lt
    rw [scanFrom?, scanFrom, isGoodLine?_eq _ 0 0 hlength (Nat.le_refl _)]
    cases isGoodLine raster axis line thresholds.minInk length.toNat 0 0
    case error e => rfl
    case ok good =>
      simp only [bind, Option.bind, Except.bind, hadd, sub?_eq_some hone, hlast,
        hbehind, step?_eq h (by omega)]
      cases hs : s.step thresholds.minWidth line good (rest == 0)
      case stop s' => rfl
      case next s' =>
        have hs := counted_of_step h (by omega) hs
        exact scanFrom?_eq rest (line + 1) s' (by omega) (hline ▸ hs)

theorem detectSpans?_eq {raster : R} {axis : ScanAxis} {thresholds : SpanThresholds}
    {capacity : Nat} :
    detectSpans? raster axis thresholds capacity =
      some (detectSpans raster axis thresholds capacity) := by
  rw [detectSpans?, detectSpans]
  cases SpanList.withCapacity capacity
  case error p => rfl
  case ok spans =>
    have hs : scan? raster axis thresholds spans = some (scan raster axis thresholds spans) :=
      scanFrom?_eq _ 0 _ (Nat.zero_add _) (Nat.le_refl _)
    simp only [hs]
    rfl

def averageWidth? (d : Detection) : Option (Option UInt32) :=
  if d.spans.isEmpty then
    some none
  else do
    let length ← word64? d.spans.length
    return some (← word? (d.goodLines.toNat / length.toNat))

theorem averageWidth?_eq {d : Detection} {good : Nat → Bool} {lineCount minWidth capacity : Nat}
    (h : d.Finds good lineCount minWidth capacity) (hn : lineCount < UInt32.size)
    (hc : capacity < UInt64.size) : averageWidth? d = some d.averageWidth? := by
  rw [averageWidth?, Detection.averageWidth?]
  cases d.spans.isEmpty
  case true => rfl
  case false =>
    have hlt : d.spans.length < UInt64.size := Nat.lt_of_le_of_lt h.firstRuns.length_le hc
    have hlength := UInt64.toNat_ofNat_of_lt' hlt
    have hquotient : (d.goodLines / .ofNat d.spans.length).toUInt32.toNat =
        d.goodLines.toNat / d.spans.length := by
      rw [UInt64.toNat_toUInt32, UInt64.toNat_div, hlength]
      exact Nat.mod_eq_of_lt <| Nat.lt_of_le_of_lt (Nat.div_le_self ..) <|
        Nat.lt_of_le_of_lt h.goodLines_le hn
    simp only [word64?, hlt, if_true, hlength, ←hquotient, word?_toNat, bind, Option.bind]
    rfl

end Detecting

section Planning

def width? (s : Span) : Option UInt32 := do
  add? (← sub? s.stop s.start) 1

-- The bands and the number of the spans that are kept, in one walk through the spans.
def plan? (minWidth lineCount : UInt32) (cursor : UInt32) : List Span → Option ErasurePlan
  | []        => do
    if cursor ≠ 0 ∧ cursor.toNat + 1 < lineCount.toNat then
      return ⟨[⟨cursor, ← sub? lineCount cursor⟩], 0⟩
    else
      return ⟨[], 0⟩
  | s :: rest => do
    if (← width? s) < minWidth then
      plan? minWidth lineCount cursor rest
    else
      let behind ← plan? minWidth lineCount (← add? s.stop 1) rest
      if cursor < s.start then
        return ⟨⟨cursor, ← sub? s.start cursor⟩ :: behind.bands, behind.kept + 1⟩
      else
        return ⟨behind.bands, behind.kept + 1⟩

variable {minWidth lineCount : UInt32} {s : Span}

theorem width?_eq (hle : s.start.toNat ≤ s.stop.toNat) (hlt : s.stop.toNat + 1 < UInt32.size) :
    width? s = some s.width := by
  have hs := UInt32.toNat_sub_of_le _ _ (UInt32.le_iff_toNat_le.mpr hle)
  simp only [width?, sub?_eq_some hle, bind, Option.bind]
  exact add?_one (by omega)

theorem plan?_eq_gaps {cursor : UInt32} {spans : List Span}
    (h : ∀ s ∈ spans, s.start.toNat ≤ s.stop.toNat ∧ s.stop.toNat < lineCount.toNat) :
    plan? minWidth lineCount cursor spans =
      some ⟨ErasurePlan.gaps lineCount cursor (spans.filter (minWidth ≤ ·.width)),
        (spans.filter (minWidth ≤ ·.width)).length⟩ := by
  induction spans generalizing cursor
  case nil =>
    rw [plan?, List.filter_nil, ErasurePlan.gaps]
    by_cases hc : cursor ≠ 0 ∧ cursor.toNat + 1 < lineCount.toNat
    case pos => simp [hc, sub?_eq_some (Nat.le_of_lt (Nat.lt_of_succ_lt hc.right))]
    case neg => simp [hc]
  case cons s rest ih =>
    obtain ⟨⟨hle, hlt⟩, hr⟩ := List.forall_mem_cons.mp h
    have hstop : s.stop.toNat + 1 < UInt32.size := Nat.lt_of_le_of_lt hlt lineCount.toNat_lt
    simp only [plan?, width?_eq hle hstop, bind, Option.bind]
    by_cases hw : s.width < minWidth
    case pos =>
      rw [if_pos hw, List.filter_cons_of_neg (by simpa using hw)]
      exact ih hr
    case neg =>
      rw [if_neg hw, List.filter_cons_of_pos (by simpa using hw), add?_one hstop, ErasurePlan.gaps]
      simp only [ih hr]
      by_cases hc : cursor < s.start
      case pos =>
        have hsub := sub?_eq_some <| Nat.le_of_lt <| UInt32.lt_iff_toNat_lt.mp hc
        simp [hc, hsub]
      case neg => simp [hc]

theorem plan?_eq {good : Nat → Bool} {minWidth capacity : Nat} {average : UInt32} {d : Detection}
    (h : d.Finds good lineCount.toNat minWidth capacity) (keepRatio : Float) :
    plan? (ErasurePlan.minWidth average keepRatio) lineCount 0 d.spans.spans =
      some (planErasure d.spans.spans average lineCount keepRatio) :=
  plan?_eq_gaps fun s hs =>
    have hs := h.firstRuns.sound s hs
    ⟨Nat.le_of_lt hs.start_lt, hs.stop_lt⟩

end Planning

section Erasing

variable {R : Type} [BinaryRaster R]

def eraseBands? (axis : ScanAxis) : List Band → R → Option (Except RemovalError Unit × R)
  | [],           raster => some (.ok (), raster)
  | band :: rest, raster => do
    let _ ← add? band.offset band.extent
    match eraseBand axis band raster with
    | (.ok _, raster)    => eraseBands? axis rest raster
    | (.error e, raster) => return (.error e, raster)

theorem eraseBands?_eq {axis : ScanAxis} {bands : List Band} {raster : R}
    (h : ∀ b ∈ bands, b.offset.toNat + b.extent.toNat < UInt32.size) :
    eraseBands? axis bands raster = some (eraseBands axis bands raster) := by
  induction bands generalizing raster
  case nil => rfl
  case cons b rest ih =>
    have ⟨hb, hr⟩ := List.forall_mem_cons.mp h
    simp only [eraseBands?, eraseBands, add?_eq_some hb, bind, Option.bind]
    cases eraseBand axis b raster with | mk result raster =>
    cases result
    case ok      => exact ih hr
    case error e => rfl

def removeFurigana? (o : RemovalOptions) (orientation : Orientation) (raster : R) :
    Option (Except (Failure RemovalError) RemovalReport × R) := do
  let axis := orientation.scanAxis
  match o.thresholds with
  | .error e => return (.error (.raised e), raster)
  | .ok thresholds =>
  match ← detectSpans? raster axis thresholds o.maxSpans.toNat with
  | .error e => return (.error e, raster)
  | .ok detection =>
  match ← averageWidth? detection with
  | none => return (.ok {}, raster)
  | some averageWidth =>
    let spans := detection.spans
    let lineCount := axis.lineCount (BinaryRaster.width raster) (BinaryRaster.height raster)
    let plan ← plan? (ErasurePlan.minWidth averageWidth o.keepRatio) lineCount 0 spans.spans
    match ← eraseBands? axis plan.bands raster with
    | (.error e, raster) => return (.error (.raised e), raster)
    | (.ok _, raster)    =>
      return (.ok ⟨spans.length, plan.kept, averageWidth, plan.bands, detection.truncated⟩, raster)

-- The spans lie on the page one behind the other, and so do the bands between them.
theorem removeFurigana?_eq (o : RemovalOptions) (orientation : Orientation) (page : Page) :
    removeFurigana? o orientation page = some (removeFurigana o orientation page) := by
  rw [removeFurigana?, removeFurigana]
  cases o.thresholds
  case error e => rfl
  case ok thresholds =>
    simp only [detectSpans?_eq, bind, Option.bind]
    cases hd : detectSpans page orientation.scanAxis thresholds o.maxSpans.toNat
    case error e => rfl
    case ok d =>
      have h := Detection.finds_of_detectSpans hd
      have hn : _ < UInt32.size := (page.lineCount orientation.scanAxis).toNat_lt
      have haverage := averageWidth?_eq h hn o.maxSpans.toNat_lt
      simp only [haverage]
      cases ha : d.averageWidth?
      case none => rfl
      case some average =>
        have hplan := @plan?_eq _ _ _ _ average _ h o.keepRatio
        have hbands : ∀ b ∈ (planErasure d.spans.spans average (page.lineCount orientation.scanAxis)
            o.keepRatio).bands, b.offset.toNat + b.extent.toNat < UInt32.size := fun b hb => by
          rw [planErasure, h.mainText_eq hn ha] at hb
          have := ErasurePlan.bounds_of_mem_gaps (h.laid_kept o.keepRatio) hb
          omega
        simp only [BinaryRaster.width, BinaryRaster.height, hplan, eraseBands?_eq hbands]
        cases eraseBands orientation.scanAxis (planErasure d.spans.spans average
          (page.lineCount orientation.scanAxis) o.keepRatio).bands page with | mk result after =>
        cases result <;> rfl

end Erasing

end Exact

variable {o : RemovalOptions} {orientation : Orientation} {page : Page}

-- The magnification is all that can be wrong, as long as there is room for as many spans as are
-- asked for, and no number on the way leaves its word.
theorem removeFurigana_page_eq_error_iff :
    (∀ e after, removeFurigana o orientation page = (.error e, after) ↔
        after = page ∧
          if o.magnification.isFinite ∧ 0 < o.magnification then
            ¬SpanList.Reservable o.maxSpans.toNat ∧ e = .panicked .capacityOverflow
          else
            e = .raised (.invalidMagnification o.magnification)) ∧
      Exact.removeFurigana? o orientation page = some (removeFurigana o orientation page) := by
  refine ⟨fun e after => ?_, Exact.removeFurigana?_eq o orientation page⟩
  by_cases h : o.magnification.isFinite ∧ 0 < o.magnification
  case pos =>
    rw [if_pos h]
    by_cases hc : SpanList.Reservable o.maxSpans.toNat
    case pos =>
      obtain ⟨_, _, _, _, hr⟩ := exists_removeFurigana page orientation h hc
      rw [hr]
      exact ⟨fun he => (by cases he), fun hn => absurd hc hn.right.left⟩
    case neg =>
      have ⟨_, ht⟩ := o.exists_thresholds h
      rw [removeFurigana_of_not_reservable page ht hc, Prod.mk.injEq, Except.error.injEq]
      exact ⟨fun he => ⟨he.right.symm, hc, he.left.symm⟩,
        fun he => ⟨he.right.right.symm, he.left.symm⟩⟩
  case neg =>
    have ht : o.thresholds = .error (.invalidMagnification o.magnification) := if_neg h
    have hr : removeFurigana o orientation page =
        (.error (.raised (.invalidMagnification o.magnification)), page) := by
      simp only [removeFurigana, ht]
    rw [if_neg h, hr, Prod.mk.injEq, Except.error.injEq]
    exact ⟨fun he => ⟨he.right.symm, he.left.symm⟩, fun he => ⟨he.right.symm, he.left.symm⟩⟩

-- The magnification is right, and still there is no report.
theorem removeFurigana_overflowing_capacity :
    let o : RemovalOptions := { maxSpans := 0x1000000000000000 }
    (o.magnification.isFinite ∧ 0 < o.magnification) ∧
      removeFurigana o .vertical wideningRuns =
        (.error (.panicked .capacityOverflow), wideningRuns) :=
  ⟨by decide +kernel, removeFurigana_of_not_reservable wideningRuns thresholds_default (by decide)⟩

end PagePrep
