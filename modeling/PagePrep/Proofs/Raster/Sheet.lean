import Mathlib
import PagePrep.Proofs.Furigana.Removal

-- A page is a sheet of pixels with two coordinates, however its bytes are numbered. Every edit does
-- to the sheet what it says, and one that fails does nothing.

namespace PagePrep

-- The pixels of a page by their coordinates. There are none outside of it.
structure Sheet where
  width  : UInt32
  height : UInt32
  ink?   : UInt32 → UInt32 → Option Bool

namespace Sheet

def size (s : Sheet) : UInt32 × UInt32 :=
  (s.width, s.height)

def ofFn (width height : UInt32) (ink : UInt32 → UInt32 → Bool) : Sheet where
  width
  height
  ink? x y := if x < width ∧ y < height then some (ink x y) else none

-- The pixels of a part take a color, and all others keep theirs.
def fill (s : Sheet) (part : UInt32 → UInt32 → Prop) [∀ x y, Decidable (part x y)] (ink : Bool) :
    Sheet where
  width    := s.width
  height   := s.height
  ink? x y := if part x y then (s.ink? x y).map fun _ => ink else s.ink? x y

def transpose (s : Sheet) : Sheet where
  width    := s.height
  height   := s.width
  ink? x y := s.ink? y x

-- The sums are those of natural numbers, so they do not wrap around.
def Fits (s : Sheet) (rect : Rect) : Prop :=
  (0 < rect.width.toNat ∧ rect.x.toNat + rect.width.toNat ≤ s.width.toNat) ∧
    0 < rect.height.toNat ∧ rect.y.toNat + rect.height.toNat ≤ s.height.toNat

end Sheet

inductive EditError where
  | raster (e : RasterError)
  | removal (e : Failure RemovalError)
deriving DecidableEq

inductive Edit where
  | set (x y : UInt32) (ink : Bool)
  | clearRect (rect : Rect)
  | eraseBand (axis : ScanAxis) (band : Band)
  | transpose
  | remove (o : RemovalOptions) (orientation : Orientation)

namespace Edit

-- Only a removal has something to report.
abbrev Answer :=
  Except EditError (Option RemovalReport)

def isTranspose : Edit → Bool
  | transpose => true
  | _         => false

end Edit

namespace Page

def edit (page : Page) : Edit → Edit.Answer × Page
  | .set x y ink            =>
    match page.setPixel x y ink with
    | .ok page => (.ok none, page)
    | .error e => (.error (.raster e), page)
  | .clearRect rect         =>
    match page.clearRect rect with
    | (.ok _, page)    => (.ok none, page)
    | (.error e, page) => (.error (.raster e), page)
  | .eraseBand axis band    =>
    match PagePrep.eraseBand axis band page with
    | (.ok _, page)    => (.ok none, page)
    | (.error e, page) => (.error (.removal (.raised e)), page)
  | .transpose              => (.ok none, Grid.transpose page)
  | .remove o orientation   =>
    match removeFurigana o orientation page with
    | (.ok report, page) => (.ok (some report), page)
    | (.error e, page)   => (.error (.removal e), page)

-- An edit that fails does not keep the others from being made.
def edits (page : Page) : List Edit → List Edit.Answer × Page
  | []        => ([], page)
  | e :: rest =>
    let (answer, page) := page.edit e
    let (answers, page) := page.edits rest
    (answer :: answers, page)

-- The pixels as they are stored, a byte for each.
def bytes (page : Page) : Array UInt8 :=
  page.cells.map Bool.toUInt8

def sheet (page : Page) : Sheet where
  width  := page.width
  height := page.height
  ink?   := page.get?

end Page

namespace Sheet

-- What an edit answers, and what it makes of a sheet.
inductive Step (s : Sheet) : Edit → Edit.Answer → Sheet → Prop
  | set {x y ink} : x < s.width → y < s.height →
    Step s (.set x y ink) (.ok none) (s.fill (fun x' y' => x' = x ∧ y' = y) ink)
  | setOutside {x y ink} : ¬(x < s.width ∧ y < s.height) →
    Step s (.set x y ink) (.error (.raster (.outOfBounds x y s.width s.height))) s
  | clear {rect} : s.Fits rect → Step s (.clearRect rect) (.ok none) (s.fill rect.Covers false)
  | clearOutside {rect} : ¬s.Fits rect →
    Step s (.clearRect rect) (.error (.raster (.invalidRect rect s.width s.height))) s
  | erase {axis band} : s.Fits (axis.bandRect band s.width s.height) →
    Step s (.eraseBand axis band) (.ok none)
      (s.fill (axis.bandRect band s.width s.height).Covers false)
  | eraseOutside {axis band} : ¬s.Fits (axis.bandRect band s.width s.height) →
    Step s (.eraseBand axis band)
      (.error (.removal (.raised (.eraseRectangle band.offset band.extent
        (.invalidRect (axis.bandRect band s.width s.height) s.width s.height))))) s
  | transpose : Step s .transpose (.ok none) s.transpose
  | remove {o orientation report} : SpanList.Reservable o.maxSpans.toNat →
    (∀ b ∈ report.bands, s.Fits (orientation.scanAxis.bandRect b s.width s.height)) →
    Step s (.remove o orientation) (.ok (some report)) (s.fill (fun x y => ∃ b ∈ report.bands,
      (orientation.scanAxis.bandRect b s.width s.height).Covers x y) false)
  | removeFailed {o orientation e} : o.thresholds = .error e →
    Step s (.remove o orientation) (.error (.removal (.raised e))) s
  | removePanicked {o orientation thresholds} : o.thresholds = .ok thresholds →
    ¬SpanList.Reservable o.maxSpans.toNat →
    Step s (.remove o orientation) (.error (.removal (.panicked .capacityOverflow))) s

inductive Steps : Sheet → List Edit → List Edit.Answer → Sheet → Prop
  | nil {s} : Steps s [] [] s
  | cons {s s' s'' e answer rest answers} : Step s e answer s' → Steps s' rest answers s'' →
    Steps s (e :: rest) (answer :: answers) s''

end Sheet

namespace Page

variable {page : Page} {x y : UInt32} {rect : Rect}

theorem sheet_cleared (h : rect.fitsWithin page.width page.height) :
    (page.cleared rect).sheet = page.sheet.fill rect.Covers false :=
  congrArg (Sheet.mk page.width page.height) <| funext₂ fun _ _ => get?_cleared h

theorem sheet_set {ink : Bool} (h : page.Contains x y) :
    sheet (page.set x y ink h) = page.sheet.fill (fun x' y' => x' = x ∧ y' = y) ink := by
  refine congrArg (Sheet.mk page.width page.height) <| funext₂ fun x' y' => ?_
  rw [Grid.get?_set]
  split
  case isTrue hxy =>
    obtain ⟨rfl, rfl⟩ := hxy
    simp [sheet, Grid.get?_eq_some_get h]
  case isFalse => rfl

theorem sheet_transpose : sheet page.transpose = page.sheet.transpose :=
  congrArg (Sheet.mk page.height page.width) <| funext₂ fun _ _ => Grid.get?_transpose

theorem sheet_eq_ofFn {width height : UInt32} {ink : UInt32 → UInt32 → Bool}
    (hw : page.width = width) (hh : page.height = height)
    (h : ∀ x y hc, page.get x y hc = ink x y) : page.sheet = .ofFn width height ink := by
  subst hw hh
  refine congrArg (Sheet.mk page.width page.height) <| funext₂ fun x y => ?_
  by_cases hc : page.Contains x y
  case pos =>
    have hi : x < page.width ∧ y < page.height := hc
    rw [Grid.get?_eq_some_get hc, h, if_pos hi]
  case neg =>
    have hi : ¬(x < page.width ∧ y < page.height) := hc
    rw [Grid.get?_eq_none_iff.mpr hc, if_neg hi]

theorem fitsWithin_iff : rect.fitsWithin page.width page.height ↔ page.sheet.Fits rect := by
  have he : !rect.isEmpty ↔ 0 < rect.width.toNat ∧ 0 < rect.height.toNat := by
    simp [Rect.isEmpty, ←UInt32.toNat_inj, Nat.pos_iff_ne_zero]
  rw [Rect.fitsWithin, Bool.and_eq_true, Bool.and_eq_true, he, decide_eq_true_iff,
    decide_eq_true_iff, and_assoc, and_and_and_comm]
  rfl

theorem sheet_blanked_bands {axis : ScanAxis} {bands : List Band} :
    (page.blanked axis fun line => ∃ b ∈ bands, b.Covers line).sheet =
      page.sheet.fill (fun x y =>
        ∃ b ∈ bands, (axis.bandRect b page.width page.height).Covers x y) false := by
  refine congrArg (Sheet.mk page.width page.height) <| funext₂ fun x y => ?_
  rw [get?_blanked]
  by_cases h : page.Contains x y
  case pos =>
    simp only [covers_bandRect_iff h, sheet, Grid.get?_eq_some_get h, Option.map_some]
    split
    case isTrue hb  => simp [hb]
    case isFalse hb => simp [hb]
  case neg =>
    simp [sheet, Grid.get?_eq_none_iff.mpr h]

-- A removal fails before it has changed anything, or erases the bands of its report.
theorem step_remove (page : Page) (o : RemovalOptions) (orientation : Orientation) :
    Sheet.Step page.sheet (.remove o orientation) (page.edit (.remove o orientation)).1
      (page.edit (.remove o orientation)).2.sheet := by
  rw [edit]
  cases ht : o.thresholds
  case error e =>
    have hr : removeFurigana o orientation page = (.error (.raised e), page) := by
      simp only [removeFurigana, ht]
    rw [hr]
    exact .removeFailed ht
  case ok thresholds =>
    by_cases hc : SpanList.Reservable o.maxSpans.toNat
    case neg =>
      rw [removeFurigana_of_not_reservable page ht hc]
      exact .removePanicked ht hc
    case pos =>
      obtain ⟨d, hd, hf⟩ := Detection.detectSpans_page page orientation.scanAxis thresholds hc
      have hb : ∀ b ∈ (d.report (page.lineCount orientation.scanAxis) o.keepRatio).bands,
          page.sheet.Fits (orientation.scanAxis.bandRect b page.width page.height) :=
        fun b hb => fitsWithin_iff.mp (hf.accepts_bands o.keepRatio b hb)
      rw [removeFurigana_page ht hd, ←blanked_gaps (hf.laid_kept o.keepRatio)]
      simp only [sheet_blanked_bands]
      exact .remove hc hb

theorem step_edit (page : Page) (e : Edit) :
    Sheet.Step page.sheet e (page.edit e).1 (page.edit e).2.sheet := by
  cases e
  case set x y ink =>
    by_cases h : page.Contains x y
    case pos =>
      simp only [edit, setPixel, dif_pos h, sheet_set]
      exact .set h.left h.right
    case neg =>
      simp only [edit, setPixel, dif_neg h]
      exact .setOutside h
  case clearRect rect =>
    by_cases h : rect.fitsWithin page.width page.height
    case pos =>
      simp only [edit, clearRect, if_pos h, sheet_cleared h]
      exact .clear (fitsWithin_iff.mp h)
    case neg =>
      simp only [edit, clearRect, if_neg h]
      exact .clearOutside (h ∘ fitsWithin_iff.mpr)
  case eraseBand axis band =>
    by_cases h : (axis.bandRect band page.width page.height).fitsWithin page.width page.height
    case pos =>
      simp only [edit, eraseBand_page h, ←cleared_bandRect h, sheet_cleared h]
      exact .erase (fitsWithin_iff.mp h)
    case neg =>
      simp only [edit, eraseBand, BinaryRaster.clearRect, BinaryRaster.width,
        BinaryRaster.height, clearRect, if_neg h]
      exact .eraseOutside (h ∘ fitsWithin_iff.mpr)
  case transpose =>
    simp only [edit, sheet_transpose]
    exact .transpose
  case remove o orientation => exact step_remove page o orientation

theorem steps_edits (page : Page) (es : List Edit) :
    Sheet.Steps page.sheet es (page.edits es).1 (page.edits es).2.sheet := by
  induction es generalizing page
  case nil            => exact .nil
  case cons e rest ih => exact .cons (step_edit page e) (ih _)

end Page

namespace Sheet

-- Every edit but an exchange of the axes keeps the size, and two exchanges give it back.
theorem Step.size_eq {s s' : Sheet} {e : Edit} {answer : Edit.Answer} (h : Step s e answer s') :
    s'.size = if e.isTranspose then s.size.swap else s.size := by
  cases h <;> rfl

theorem Steps.size_eq {s s' : Sheet} {es : List Edit} {answers : List Edit.Answer}
    (h : Steps s es answers s') :
    s'.size = if Even (es.countP Edit.isTranspose) then s.size else s.size.swap := by
  induction h
  case nil => simp
  case cons e _ _ _ hs _ ih =>
    rw [ih, hs.size_eq, List.countP_cons]
    cases e.isTranspose
    case false => simp
    case true  =>
      simp only [if_true, Prod.swap_swap, Nat.even_add_one]
      split <;> simp_all

end Sheet

namespace Page

-- How a page is stored, and what is read from it.
structure WellStored (page : Page) : Prop where
  size       : page.bytes.size = page.width.toNat * page.height.toNat
  bit        : ∀ b ∈ page.bytes, b = 0 ∨ b = 1
  inside     : ∀ x y, x < page.width → y < page.height →
    ∃ b, page.bytes[y.toNat * page.width.toNat + x.toNat]? = some b ∧
      page.get? x y = some (b == 1) ∧ page.pixel x y = .ok (b == 1)
  outside    : ∀ x y, ¬(x < page.width ∧ y < page.height) →
    page.get? x y = none ∧ page.pixel x y = .error (.outOfBounds x y page.width page.height)
  transposed : page.transpose.transpose = page

theorem wellStored (page : Page) : page.WellStored where
  size := by rw [bytes, Array.size_map, page.size_cells]
  bit b hb := by
    obtain ⟨ink, _, rfl⟩ := Array.mem_map.mp hb
    cases ink
    case false => exact .inl rfl
    case true  => exact .inr rfl
  inside x y hx hy := by
    have hc : page.Contains x y := ⟨hx, hy⟩
    have hg := Grid.get?_eq_some_get hc
    have hb : page.bytes[page.offset x y]? = some (page.get x y hc).toUInt8 := by
      rw [bytes, Array.getElem?_map, ←Grid.get?_eq_getElem? hc, hg, Option.map_some]
    refine ⟨_, hb, ?_⟩
    rw [pixel, hg]
    cases page.get x y hc
    case false => exact ⟨rfl, rfl⟩
    case true  => exact ⟨rfl, rfl⟩
  outside x y h := by
    have hg := Grid.get?_eq_none_iff.mpr h
    exact ⟨hg, by rw [pixel, hg, outside]⟩
  transposed := Grid.transpose_transpose

-- What a page is made from.
inductive Origin where
  | blank (width height : UInt32)
  | ofFn (width height : UInt32) (ink : UInt32 → UInt32 → Bool)
  | ofBytes (width height : UInt32) (bytes : Array UInt8)

namespace Origin

def page : Origin → Except RasterError Page
  | blank width height         => .ok (Page.blank width height)
  | ofFn width height ink      => .ok (Grid.ofFn width height fun x y _ => ink x y)
  | ofBytes width height bytes => Page.ofBytes width height bytes

-- The bytes of a page are given row by row.
def sheet : Origin → Except RasterError Sheet
  | blank width height         => .ok (.ofFn width height fun _ _ => false)
  | ofFn width height ink      => .ok (.ofFn width height ink)
  | ofBytes width height bytes =>
    if bytes.size = width.toNat * height.toNat then
      .ok (.ofFn width height fun x y => bytes.getD (y.toNat * width.toNat + x.toNat) 0 != 0)
    else
      .error (.bufferSize width height bytes.size)

theorem map_sheet_page (origin : Origin) : origin.page.map Page.sheet = origin.sheet := by
  cases origin
  case blank width height =>
    refine congrArg Except.ok <| sheet_eq_ofFn rfl rfl fun x y hc => ?_
    simp [Page.blank, Grid.get, Grid.replicate]
  case ofFn width height ink =>
    exact congrArg Except.ok <| sheet_eq_ofFn rfl rfl fun _ _ hc => Grid.get_ofFn hc
  case ofBytes width height bytes =>
    have hm : (bytes.map (· != 0)).size = bytes.size := Array.size_map
    rw [sheet, page, Page.ofBytes, Grid.ofCells?]
    by_cases hs : bytes.size = width.toNat * height.toNat
    case neg =>
      rw [if_neg hs, dif_neg (hm ▸ hs)]
      rfl
    case pos =>
      rw [if_pos hs, dif_pos (hm.trans hs)]
      refine congrArg Except.ok <| sheet_eq_ofFn rfl rfl fun x y hc => ?_
      have ho : y.toNat * width.toNat + x.toNat < bytes.size := hm ▸ Grid.offset_lt hc
      simp [Grid.get, Grid.offset, ho]

end Origin

-- Whatever was edited, and whether or not it succeeded, the pixels are those of the sheet that the
-- page was made from after the same edits.
theorem edits_sheet {origin : Origin} {page : Page} (h : origin.page = .ok page)
    (es : List Edit) :
    origin.sheet = .ok page.sheet ∧
      Sheet.Steps page.sheet es (page.edits es).1 (page.edits es).2.sheet ∧
      (page.edits es).2.sheet.size =
        (if Even (es.countP Edit.isTranspose) then page.sheet.size else page.sheet.size.swap) ∧
      (page.edits es).2.WellStored := by
  have hs := steps_edits page es
  refine ⟨?_, hs, hs.size_eq, wellStored _⟩
  rw [←origin.map_sheet_page, h]
  rfl

def strip : Origin :=
  .ofBytes 3 2 #[0, 7, 0, 255, 0, 1]

-- In 32 bits the first rectangle would end in column 1, and the pixel of the second edit is outside
-- of the page.
def stripEdits : List Edit :=
  [.clearRect ⟨4294967295, 0, 2, 1⟩, .set 9 0 true, .transpose, .clearRect ⟨1, 0, 1, 2⟩,
    .eraseBand .rows ⟨2, 1⟩, .remove {} .vertical]

theorem edits_sheet_strip :
    ∃ page, strip.page = .ok page ∧ strip.sheet = .ok page.sheet ∧
      Sheet.Steps page.sheet stripEdits (page.edits stripEdits).1
        (page.edits stripEdits).2.sheet ∧
      (page.edits stripEdits).1 = [.error (.raster (.invalidRect ⟨4294967295, 0, 2, 1⟩ 3 2)),
        .error (.raster (.outOfBounds 9 0 3 2)), .ok none, .ok none, .ok none, .ok (some {})] ∧
      (page.edits stripEdits).2.bytes = #[0, 0, 1, 0, 0, 0] ∧
      (page.edits stripEdits).2.sheet.size = (2, 3) ∧ (page.edits stripEdits).2.WellStored := by
  have hp : strip.page = .ok ⟨3, 2, #[false, true, false, true, false, true], rfl⟩ := by
    decide +kernel
  obtain ⟨horigin, hsteps, hsize, hstored⟩ := edits_sheet hp stripEdits
  exact ⟨_, hp, horigin, hsteps, by decide +kernel, by decide +kernel, hsize, hstored⟩

end Page

end PagePrep
