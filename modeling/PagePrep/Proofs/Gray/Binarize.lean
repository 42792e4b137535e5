import Mathlib
import PagePrep.Gray.Binarize
import PagePrep.Proofs.Gray.BoxFilter
import PagePrep.Proofs.Gray.Otsu
import PagePrep.Proofs.Gray.Tile

-- A binarized page has ink where a sample is no lighter than the thresholds of the tiles around it.
-- Without smoothing a tile is judged by its own samples alone. A page that is binarized already
-- comes back as it was.

namespace PagePrep.GrayImage

variable {image other : GrayImage} {o : BinarizeOptions} {tx ty x y : UInt32}

-- What the binarization asks for.
structure Binarizable (image : GrayImage) (o : BinarizeOptions) : Prop where
  width         : image.width ≠ 0
  height        : image.height ≠ 0
  tileWidth     : minTileSize ≤ o.tileWidth
  tileHeight    : minTileSize ≤ o.tileHeight
  scoreFraction : 0 ≤ o.scoreFraction ∧ o.scoreFraction ≤ 1

-- The threshold of a tile by itself.
def thresholdOfTile (image : GrayImage) (o : BinarizeOptions) (tx ty : UInt32) : UInt8 :=
  tileThreshold (image.tileSamples (image.tileGrid o) tx ty) o.scoreFraction

-- The number of tiles on either side over which the thresholds of a row, or of a column, of tiles
-- are smoothed.
def smoothingX (image : GrayImage) (o : BinarizeOptions) : UInt32 :=
  min o.smoothX (((image.tileGrid o).nx - 1) / 2)

def smoothingY (image : GrayImage) (o : BinarizeOptions) : UInt32 :=
  min o.smoothY (((image.tileGrid o).ny - 1) / 2)

def smoothedThresholds (image : GrayImage) (o : BinarizeOptions) : GrayImage :=
  let thresholds := image.tileThresholds (image.tileGrid o) o.scoreFraction
  if image.smoothingX o = 0 ∧ image.smoothingY o = 0 then
    thresholds
  else
    thresholds.boxFilter (image.smoothingX o) (image.smoothingY o)

-- The tiles whose thresholds the smoothing mixes into that of a tile.
structure Mixes (image : GrayImage) (o : BinarizeOptions) (tx ty a b : UInt32) : Prop where
  hasTile : (image.tileGrid o).HasTile a b
  nearX   : Near (image.smoothingX o) a tx
  nearY   : Near (image.smoothingY o) b ty

section Thresholds

theorem tileGrid_congr (hw : other.width = image.width) (hh : other.height = image.height) :
    other.tileGrid o = image.tileGrid o := by
  rw [tileGrid, hw, hh, tileGrid]

theorem thresholdOfTile_congr (hg : other.tileGrid o = image.tileGrid o)
    (ht : (image.tileGrid o).HasTile tx ty)
    (h : ∀ x y, (image.tileGrid o).Contains tx ty x y → other.get? x y = image.get? x y) :
    other.thresholdOfTile o tx ty = image.thresholdOfTile o tx ty := by
  rw [thresholdOfTile, hg, tileSamples_congr ht h, thresholdOfTile]

theorem Binarizable.wellFormed (h : image.Binarizable o) : (image.tileGrid o).WellFormed :=
  TileGrid.wellFormed_layout h.width h.height

theorem Mixes.self (ht : (image.tileGrid o).HasTile tx ty) : image.Mixes o tx ty tx ty :=
  ⟨ht, near_self .., near_self ..⟩

theorem get?_tileThresholds (h : image.Binarizable o) (ht : (image.tileGrid o).HasTile tx ty) :
    (image.tileThresholds (image.tileGrid o) o.scoreFraction).get? tx ty =
      some (image.thresholdOfTile o tx ty) := by
  have hin : tx < (image.tileGrid o).nx ∧ ty < (image.tileGrid o).ny := ht
  rw [tileThresholds, Grid.get?_ofFn, dif_pos hin, cells_crop_bounds h.wellFormed rfl rfl ht,
    thresholdOfTile]

theorem thresholdMap_eq (h : image.Binarizable o) :
    image.thresholdMap o = .ok (image.smoothedThresholds o) := by
  have hsize : ¬(image.width = 0 ∨ image.height = 0) := not_or.mpr ⟨h.width, h.height⟩
  have htile : ¬(o.tileWidth < minTileSize ∨ o.tileHeight < minTileSize) :=
    not_or.mpr ⟨UInt32.not_lt.mpr h.tileWidth, UInt32.not_lt.mpr h.tileHeight⟩
  rw [thresholdMap, if_neg hsize, if_neg htile, if_neg (by simpa using h.scoreFraction)]
  exact (apply_ite Except.ok ..).symm

theorem isSome_smoothedThresholds (ht : (image.tileGrid o).HasTile tx ty) :
    ((image.smoothedThresholds o).get? tx ty).isSome := by
  refine Grid.isSome_get?_iff.mpr ?_
  rw [smoothedThresholds]
  split
  case isTrue  => exact ht
  case isFalse => exact ht

theorem smoothedThresholds_between (lo hi : UInt8) (h : image.Binarizable o)
    (ht : (image.tileGrid o).HasTile tx ty)
    (hb : ∀ a b, image.Mixes o tx ty a b →
      lo ≤ image.thresholdOfTile o a b ∧ image.thresholdOfTile o a b ≤ hi) :
    lo ≤ (image.smoothedThresholds o).getD tx ty 0 ∧
      (image.smoothedThresholds o).getD tx ty 0 ≤ hi := by
  have hnear (a b : UInt32) (hx : Near (image.smoothingX o) a tx)
      (hy : Near (image.smoothingY o) b ty) :
      ∀ v ∈ (image.tileThresholds (image.tileGrid o) o.scoreFraction).get? a b,
        lo ≤ v ∧ v ≤ hi := by
    intro v hv
    have hin : (image.tileGrid o).HasTile a b :=
      Grid.isSome_get?_iff.mp <| Option.isSome_of_eq_some hv
    cases (get?_tileThresholds h hin).symm.trans hv
    exact hb a b ⟨hin, hx, hy⟩
  obtain ⟨v, hv⟩ := Option.isSome_iff_exists.mp (image.isSome_smoothedThresholds ht)
  rw [Grid.getD, hv, Option.getD_some]
  rw [smoothedThresholds] at hv
  split at hv
  case isTrue  => exact hnear tx ty (near_self ..) (near_self ..) v hv
  case isFalse => exact boxFilter_between hnear v hv

theorem le_smoothedThresholds {v : UInt8} (h : image.Binarizable o)
    (ht : (image.tileGrid o).HasTile tx ty)
    (hle : ∀ a b, image.Mixes o tx ty a b → v ≤ image.thresholdOfTile o a b) :
    v ≤ (image.smoothedThresholds o).getD tx ty 0 :=
  And.left <| smoothedThresholds_between v 255 h ht fun a b hm =>
    ⟨hle a b hm, UInt8.le_iff_toNat_le.mpr <| Nat.le_of_lt_succ <| UInt8.toNat_lt _⟩

theorem smoothedThresholds_lt {v : UInt8} (h : image.Binarizable o)
    (ht : (image.tileGrid o).HasTile tx ty)
    (hlt : ∀ a b, image.Mixes o tx ty a b → image.thresholdOfTile o a b < v) :
    (image.smoothedThresholds o).getD tx ty 0 < v := by
  have hpos := UInt8.lt_iff_toNat_lt.mp <| hlt tx ty (.self ht)
  have hpred : (v - 1).toNat = v.toNat - 1 :=
    UInt8.toNat_sub_of_le _ _ (UInt8.le_iff_toNat_le.mpr (Nat.zero_lt_of_lt hpos))
  have hiff (t : UInt8) : t ≤ v - 1 ↔ t < v := by
    rw [UInt8.le_iff_toNat_le, UInt8.lt_iff_toNat_lt, hpred]
    omega
  refine (hiff _).mp <| And.right <| smoothedThresholds_between 0 _ h ht fun a b hm => ?_
  exact ⟨UInt8.zero_le, (hiff _).mpr (hlt a b hm)⟩

-- Without smoothing each tile keeps its own threshold.
theorem smoothedThresholds_getD (h : image.Binarizable o) (ht : (image.tileGrid o).HasTile tx ty)
    (hx : image.smoothingX o = 0) (hy : image.smoothingY o = 0) :
    (image.smoothedThresholds o).getD tx ty 0 = image.thresholdOfTile o tx ty := by
  rw [smoothedThresholds, if_pos ⟨hx, hy⟩, Grid.getD, get?_tileThresholds h ht, Option.getD_some]

end Thresholds

-- Every pixel is compared with the threshold that its tile has after the smoothing.
theorem exists_binarize (h : image.Binarizable o) :
    ∃ page, image.binarize o = .ok page ∧ page.width = image.width ∧ page.height = image.height ∧
      ∀ tx ty x y v, (image.tileGrid o).Contains tx ty x y → image.get? x y = some v →
        page.get? x y = some (decide (v ≤ (image.smoothedThresholds o).getD tx ty 0)) := by
  refine ⟨_, by rw [binarize, thresholdMap_eq h]; rfl, rfl, rfl, ?_⟩
  intro tx ty x y v ht hv
  have hc : image.Contains x y := Grid.isSome_get?_iff.mp <| Option.isSome_of_eq_some hv
  cases (Grid.get?_eq_some_get hc).symm.trans hv
  have hin : x < image.width ∧ y < image.height := hc
  rw [Grid.get?_ofFn, dif_pos hin, h.wellFormed.tileOf_eq ht]

-- A pixel is ink if no threshold around its tile is darker, and paper if all of them are.
structure SplitsTiles (image : GrayImage) (o : BinarizeOptions) (page : Page) : Prop where
  width  : page.width = image.width
  height : page.height = image.height
  tiled  : ∀ x y, image.Contains x y → ∃ tx ty, (image.tileGrid o).Contains tx ty x y
  ink    : ∀ tx ty x y v, (image.tileGrid o).Contains tx ty x y → image.get? x y = some v →
    (∀ a b, image.Mixes o tx ty a b → v ≤ image.thresholdOfTile o a b) →
    page.get? x y = some true
  paper  : ∀ tx ty x y v, (image.tileGrid o).Contains tx ty x y → image.get? x y = some v →
    (∀ a b, image.Mixes o tx ty a b → image.thresholdOfTile o a b < v) →
    page.get? x y = some false

-- Each pixel is judged by its tile alone, so the samples of other tiles do not matter for it.
structure SplitsAlone (image : GrayImage) (o : BinarizeOptions) (page : Page) : Prop where
  ink        : ∀ tx ty x y v, (image.tileGrid o).Contains tx ty x y → image.get? x y = some v →
    page.get? x y = some (decide (v ≤ image.thresholdOfTile o tx ty))
  unaffected : ∀ other : GrayImage, other.width = image.width → other.height = image.height →
    ∃ otherPage, other.binarize o = .ok otherPage ∧
      ∀ tx ty, (∀ x y, (image.tileGrid o).Contains tx ty x y → other.get? x y = image.get? x y) →
        ∀ x y, (image.tileGrid o).Contains tx ty x y → otherPage.get? x y = page.get? x y

theorem binarize_splitsTiles (h : image.Binarizable o) :
    ∃ page, image.binarize o = .ok page ∧ image.SplitsTiles o page ∧
      (image.smoothingX o = 0 ∧ image.smoothingY o = 0 → image.SplitsAlone o page) := by
  have ⟨page, hp, hw, hh, hink⟩ := exists_binarize h
  refine ⟨page, hp, ⟨hw, hh, ?tiled, ?ink, ?paper⟩, ?alone⟩
  case tiled => exact fun x y hc => ⟨_, _, h.wellFormed.contains_tileOf hc.left hc.right⟩
  case ink =>
    intro tx ty x y v hc hv hle
    rw [hink tx ty x y v hc hv, decide_eq_true (le_smoothedThresholds h hc.left hle)]
  case paper =>
    intro tx ty x y v hc hv hlt
    rw [hink tx ty x y v hc hv, decide_eq_false]
    exact UInt8.not_le.mpr (smoothedThresholds_lt h hc.left hlt)
  case alone =>
    intro ⟨hx, hy⟩
    refine ⟨fun tx ty x y v hc hv => ?ink, fun other hw hh => ?unaffected⟩
    case ink => rw [hink tx ty x y v hc hv, smoothedThresholds_getD h hc.left hx hy]
    case unaffected =>
      have hg : other.tileGrid o = image.tileGrid o := tileGrid_congr hw hh
      have ho : other.Binarizable o := { h with width := hw ▸ h.width, height := hh ▸ h.height }
      have ⟨otherPage, hp, _, _, hotherInk⟩ := exists_binarize ho
      refine ⟨otherPage, hp, fun tx ty hsame x y hc => ?_⟩
      obtain ⟨v, hv⟩ := Option.isSome_iff_exists.mp <| Grid.isSome_get?_iff.mpr hc.inside
      rw [hink tx ty x y v hc hv, smoothedThresholds_getD h hc.left hx hy,
        hotherInk tx ty x y v (hg ▸ hc) ((hsame x y hc).trans hv),
        smoothedThresholds_getD ho (hg ▸ hc.left) (by rwa [smoothingX, hg])
          (by rwa [smoothingY, hg]), thresholdOfTile_congr hg hc.left hsame]

-- A dim tile and a bright one that is wider by one, with text in the first two columns of each.
def dimAndBright : GrayImage :=
  Grid.ofFn 33 1 fun x _ _ =>
    if x < 16 then if x < 2 then 20 else 30 else if x < 18 then 40 else 50

set_option maxRecDepth 20000 in
theorem thresholdOfTile_dimAndBright :
    dimAndBright.thresholdOfTile { tileWidth := 16, tileHeight := 16 } 0 0 = 20 ∧
      dimAndBright.thresholdOfTile { tileWidth := 16, tileHeight := 16 } 1 0 = 40 := by
  decide +kernel

-- The text of the bright tile is lighter than the paper of the dim one.
theorem binarize_splitsTiles_dimAndBright :
    ∃ page, dimAndBright.binarize { tileWidth := 16, tileHeight := 16 } = .ok page ∧
      dimAndBright.SplitsTiles { tileWidth := 16, tileHeight := 16 } page ∧
      page.get? 2 0 = some false ∧ page.get? 17 0 = some true ∧ page.get? 32 0 = some false := by
  have h : dimAndBright.Binarizable { tileWidth := 16, tileHeight := 16 } :=
    ⟨by decide, by decide, by decide, by decide, by decide +kernel⟩
  have ⟨page, hp, hs, ha⟩ := binarize_splitsTiles h
  have ha := ha (by decide +kernel)
  have ⟨hdim, hbright⟩ := thresholdOfTile_dimAndBright
  have hdimPaper := ha.ink 0 0 2 0 30 (by decide +kernel) (by decide +kernel)
  have htext := ha.ink 1 0 17 0 40 (by decide +kernel) (by decide +kernel)
  have hpaper := ha.ink 1 0 32 0 50 (by decide +kernel) (by decide +kernel)
  rw [hdim] at hdimPaper
  rw [hbright] at htext hpaper
  exact ⟨page, hp, hs, hdimPaper, htext, hpaper⟩

section Bilevel

variable {page : Page}

theorem eq_or_eq_of_mem_tileSamples {g : TileGrid} :
    ∀ v ∈ tileSamples page.toGray g tx ty, v = 0 ∨ v = 255 := by
  intro v hv
  simp only [tileSamples, List.mem_toArray, List.mem_flatMap, List.mem_filterMap, Page.toGray,
    Grid.get?_map, Option.map_eq_some_iff] at hv
  obtain ⟨_, _, _, _, ink, _, rfl⟩ := hv
  cases ink
  case false => exact .inr rfl
  case true  => exact .inl rfl

theorem binarize_toGray (h : Binarizable page.toGray o) : binarize page.toGray o = .ok page := by
  have ⟨result, hr, hw, hh, hink⟩ := exists_binarize h
  have hresult : result = page := by
    refine Grid.ext_get? hw hh fun x y => ?_
    cases hp : page.get? x y
    case none =>
      have hc : ¬page.Contains x y := Grid.get?_eq_none_iff.mp hp
      exact Grid.get?_eq_none_iff.mpr fun hc' => hc ⟨hw ▸ hc'.left, hh ▸ hc'.right⟩
    case some ink =>
      have hc : page.Contains x y := Grid.isSome_get?_iff.mp <| Option.isSome_of_eq_some hp
      have ht := h.wellFormed.contains_tileOf hc.left hc.right
      have hv : page.toGray.get? x y = some (if ink then 0 else 255) := by
        rw [Page.toGray, Grid.get?_map, hp, Option.map_some]
      have hlt : (smoothedThresholds page.toGray o).getD _ _ 0 < 255 :=
        smoothedThresholds_lt h ht.left fun a b _ => UInt8.lt_of_le_of_lt
          (tileThreshold_le_one eq_or_eq_of_mem_tileSamples o.scoreFraction) (by decide)
      rw [hink _ _ x y _ ht hv]
      cases ink
      case false => simpa using hlt
      case true  => simp
  rw [hr, hresult]

-- Ink and paper meet inside of the first tile, and the other two have no ink.
def leftInk : Page :=
  Grid.ofFn 50 1 fun x _ _ => x < 5

theorem binarize_toGray_leftInk :
    binarize leftInk.toGray
        { tileWidth := 16, tileHeight := 16, smoothX := 3, scoreFraction := 0.5 } = .ok leftInk :=
  binarize_toGray
    { width         := by decide
      height        := by decide
      tileWidth     := by decide
      tileHeight    := by decide
      scoreFraction := by decide +kernel }

end Bilevel

end PagePrep.GrayImage
