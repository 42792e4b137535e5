import PagePrep.Proofs.Furigana.Removal

-- What a raster is made of does not matter. If it reads and clears like the page that it stands
-- for, then the removal does to it what it does to the page.

namespace PagePrep

section Simulation

variable {R : Type} [BinaryRaster R] {toPage : R → Page} {raster : R} {after : Page}
  {axis : ScanAxis}

-- The rasters of a type stand for pages. Of the errors nothing is asked but that they come where
-- the page has one.
structure Represents (toPage : R → Page) : Prop where
  width            : ∀ r, BinaryRaster.width r = (toPage r).width
  height           : ∀ r, BinaryRaster.height r = (toPage r).height
  pixel            : ∀ r x y ink,
    BinaryRaster.pixel r x y = .ok ink ↔ (toPage r).pixel x y = .ok ink
  clearRect        : ∀ r rect,
    (BinaryRaster.clearRect r rect).1 = .ok () ↔ ((toPage r).clearRect rect).1 = .ok ()
  toPage_clearRect : ∀ r rect,
    toPage (BinaryRaster.clearRect r rect).2 = ((toPage r).clearRect rect).2

namespace Represents

variable (h : Represents toPage)
include h

theorem lineCount_eq :
    axis.lineCount (BinaryRaster.width raster) (BinaryRaster.height raster) =
      (toPage raster).lineCount axis := by
  rw [h.width, h.height]

section Reading

variable {line pos : UInt32} {thresholds : SpanThresholds} {capacity : Nat}

-- On the page there is no error, so there is none on the raster.
theorem readInk_eq (hl : line < (toPage raster).lineCount axis)
    (hp : pos < (toPage raster).lineLength axis) :
    Detection.readInk raster (axis.point line pos) =
      Detection.readInk (toPage raster) (axis.point line pos) := by
  have hc := Page.contains_point_iff.mpr ⟨hl, hp⟩
  have hpage : (toPage raster).pixel (axis.point line pos).1 (axis.point line pos).2 =
      .ok (Grid.get _ _ _ hc) := by rw [Page.pixel, Grid.get?_eq_some_get hc]
  have hraster := (h.pixel ..).mpr hpage
  change BinaryRaster.pixel (toPage raster) _ _ = _ at hpage
  rw [Detection.readInk, hraster, Detection.readInk, hpage]

theorem detectSpans_eq :
    detectSpans raster axis thresholds capacity =
      detectSpans (toPage raster) axis thresholds capacity := by
  refine Detection.detectSpans_congr fun spans => ?_
  simp only [Detection.scan, h.width, h.height]
  refine Detection.scanFrom_congr ((toPage raster).lineCount axis).toNat_lt (fun line hl => ?_)
    _ 0 _ (Nat.zero_add _)
  refine Detection.isGoodLine_congr ((toPage raster).lineLength axis).toNat_lt (fun pos hp => ?_)
    _ 0 0 (Nat.zero_add _)
  exact h.readInk_eq (UInt32.lt_iff_toNat_lt.mpr hl) (UInt32.lt_iff_toNat_lt.mpr hp)

end Reading

section Erasing

variable {band : Band} {bands : List Band}

theorem eraseBand_eq (he : eraseBand axis band (toPage raster) = (.ok (), after)) :
    ∃ raster', eraseBand axis band raster = (.ok (), raster') ∧ toPage raster' = after := by
  let rect := axis.bandRect band (BinaryRaster.width raster) (BinaryRaster.height raster)
  have hrect : axis.bandRect band (toPage raster).width (toPage raster).height = rect := by
    rw [←h.width, ←h.height]
  have hpage : (toPage raster).clearRect rect = (.ok (), after) :=
    hrect ▸ eraseBand_eq_ok_iff.mp he
  have hraster := (h.clearRect raster rect).mpr (congrArg Prod.fst hpage)
  refine ⟨_, eraseBand_eq_ok_iff.mpr (Prod.ext hraster rfl), ?_⟩
  rw [h.toPage_clearRect, hpage]

theorem eraseBands_eq (he : eraseBands axis bands (toPage raster) = (.ok (), after)) :
    ∃ raster', eraseBands axis bands raster = (.ok (), raster') ∧ toPage raster' = after := by
  induction bands generalizing raster
  case nil =>
    cases he
    exact ⟨raster, rfl, rfl⟩
  case cons band rest ih =>
    rw [eraseBands] at he
    split at he
    case h_1 page hb =>
      obtain ⟨raster', hr, hp⟩ := h.eraseBand_eq hb
      rw [eraseBands, hr]
      exact ih (hp ▸ he)
    case h_2 => cases he

end Erasing

end Represents

end Simulation

-- A raster of rows of bits, the first pixel of a row in the lowest bit of its number.
structure BitRows where
  width  : UInt32
  height : UInt32
  rows   : List Nat

namespace BitRows

variable {b : BitRows} {rect : Rect} {x y : UInt32}

def ink (b : BitRows) (x y : UInt32) : Bool :=
  (b.rows.getD y.toNat 0).testBit x.toNat

def toPage (b : BitRows) : Page :=
  Grid.ofFn b.width b.height fun x y _ => b.ink x y

def pixel (b : BitRows) (x y : UInt32) : Except RasterError Bool :=
  if x < b.width ∧ y < b.height then .ok (b.ink x y) else .error (.outOfBounds x y b.width b.height)

-- The bits that a rectangle covers in each of its rows.
def mask (rect : Rect) : Nat :=
  (1 <<< rect.width.toNat - 1) <<< rect.x.toNat

def cleared (b : BitRows) (rect : Rect) : BitRows :=
  { b with rows := b.rows.mapIdx fun y row =>
      if rect.y.toNat ≤ y ∧ y < rect.bottom then row ^^^ (row &&& mask rect) else row }

def clearRect (b : BitRows) (rect : Rect) : Except RasterError Unit × BitRows :=
  if rect.fitsWithin b.width b.height then
    (.ok (), b.cleared rect)
  else
    (.error (.invalidRect rect b.width b.height), b)

instance : BinaryRaster BitRows where
  width     := width
  height    := height
  pixel     := pixel
  clearRect := clearRect

@[simp]
theorem width_toPage : b.toPage.width = b.width :=
  rfl

@[simp]
theorem height_toPage : b.toPage.height = b.height :=
  rfl

theorem testBit_mask_iff {i : Nat} : (mask rect).testBit i ↔ rect.x.toNat ≤ i ∧ i < rect.right := by
  rw [mask, Nat.testBit_shiftLeft, Nat.one_shiftLeft, Nat.testBit_two_pow_sub_one, Rect.right]
  simp only [Bool.and_eq_true, decide_eq_true_eq]
  omega

theorem ink_cleared : (b.cleared rect).ink x y = (!decide (rect.Covers x y) && b.ink x y) := by
  simp only [ink, cleared, List.getD_eq_getElem?_getD, List.getElem?_mapIdx]
  cases b.rows[y.toNat]?
  case none => simp
  case some row =>
    simp only [Option.map_some, Option.getD_some, Rect.Covers, UInt32.le_iff_toNat_le,
      ←testBit_mask_iff]
    by_cases hy : rect.y.toNat ≤ y.toNat ∧ y.toNat < rect.bottom
    case pos => cases hm : (mask rect).testBit x.toNat <;> simp [hy, hm]
    case neg => simp [hy]

theorem get?_toPage :
    b.toPage.get? x y = if x < b.width ∧ y < b.height then some (b.ink x y) else none := by
  rw [toPage, Grid.get?_ofFn]
  rfl

theorem toPage_cleared (h : rect.fitsWithin b.width b.height) :
    (b.cleared rect).toPage = b.toPage.cleared rect := by
  refine Grid.ext_get? rfl rfl fun x y => ?_
  rw [Page.get?_cleared h, get?_toPage, get?_toPage, ink_cleared]
  by_cases hp : x < b.width ∧ y < b.height
  case pos => by_cases hc : rect.Covers x y <;> simp [cleared, hc, hp]
  case neg => simp [cleared, hp]

theorem represents_toPage : Represents BitRows.toPage where
  width _ := rfl
  height _ := rfl
  pixel b x y ink := by
    by_cases h : x < b.width ∧ y < b.height
    all_goals simp [BinaryRaster.pixel, pixel, Page.pixel, get?_toPage, h]
  clearRect b rect := by
    by_cases h : rect.fitsWithin b.width b.height
    all_goals simp [BinaryRaster.clearRect, clearRect, Page.clearRect, h]
  toPage_clearRect b rect := by
    by_cases h : rect.fitsWithin b.width b.height
    all_goals simp [BinaryRaster.clearRect, clearRect, Page.clearRect, h, toPage_cleared]

end BitRows

-- The page `wideningRuns`, each of its two rows a number.
def packedRuns : BitRows :=
  ⟨38, 2, [137438887903, 137438887903]⟩

theorem toPage_packedRuns : packedRuns.toPage = wideningRuns := by
  decide +kernel

-- On a page the removal fails for its options only, so the raster can not make it fail.
theorem removeFurigana_toPage {R : Type} [BinaryRaster R] {toPage : R → Page}
    (h : Represents toPage) (o : RemovalOptions) (orientation : Orientation) (raster : R) :
    (removeFurigana o orientation raster).map id toPage =
      removeFurigana o orientation (toPage raster) := by
  cases ht : o.thresholds
  case error e => simp [removeFurigana, ht]
  case ok thresholds =>
    by_cases hc : SpanList.Reservable o.maxSpans.toNat
    case pos =>
      obtain ⟨d, hd, hf⟩ := Detection.detectSpans_page (toPage raster) orientation.scanAxis
        thresholds hc
      obtain ⟨raster', he, hp⟩ := h.eraseBands_eq (hf.eraseBands_report o.keepRatio)
      have hr := removeFurigana_eq_eraseBands h.lineCount_eq ht (h.detectSpans_eq.trans hd) hf
      rw [hr, he, removeFurigana_page ht hd, ←hp]
      rfl
    case neg =>
      rw [removeFurigana_of_not_reservable raster ht hc,
        removeFurigana_of_not_reservable (toPage raster) ht hc]
      rfl

theorem removeFurigana_toPage_packedRuns :
    ∃ after, removeFurigana {} .vertical packedRuns = (.ok ⟨3, 2, 11, [⟨0, 6⟩], false⟩, after) ∧
      after.toPage = (removeFurigana {} .vertical wideningRuns).2 := by
  have h := removeFurigana_toPage BitRows.represents_toPage {} .vertical packedRuns
  rw [toPage_packedRuns] at h
  have hr := (congrArg Prod.fst h).trans removeFurigana_wideningRuns
  exact ⟨_, Prod.ext hr rfl, congrArg Prod.snd h⟩

end PagePrep
