import Mathlib
import PagePrep.Proofs.Gray.Tile
import PagePrep.Proofs.Number.Word

-- The tiles of a picture share its pixels out: each pixel lies within the bounds of one tile, the
-- one that is looked up for it. No tile is smaller than the others of its grid, nor twice as large,
-- and no number that is worked out on the way leaves its word.

namespace PagePrep

section Parts

variable {size n i tile : Nat}

theorem sub_start_of_last (hlast : i + 1 = n) :
    size - i * (size / n) = size / n + size % n := by
  refine Nat.sub_eq_of_eq_add ?_
  calc size
    _ = n * (size / n) + size % n := (Nat.div_add_mod ..).symm
    _ = _ := by rw [← hlast, Nat.succ_mul]; ac_rfl

-- What is left over behind the last part is less than a part if the number of parts is chosen for
-- parts of a wanted size.
theorem mod_lt_div_of_parts (h : 0 < size) (ht : 0 < tile) :
    size % max (size / tile) 1 < size / max (size / tile) 1 := by
  by_cases hlt : size < tile
  case pos => simpa [Nat.div_eq_of_lt hlt, Nat.mod_one] using h
  case neg =>
    have hn : 0 < size / tile := Nat.div_pos (Nat.not_lt.mp hlt) ht
    rw [Nat.max_eq_left hn]
    calc size % (size / tile)
      _ = (size % tile + size / tile * tile) % (size / tile) := by rw [Nat.mod_add_div']
      _ = size % tile % (size / tile)                        := Nat.add_mul_mod_self_left ..
      _ ≤ size % tile                                        := Nat.mod_le ..
      _ < tile                                               := Nat.mod_lt _ ht
      _ ≤ size / (size / tile)                               :=
        (Nat.le_div_iff_mul_le hn).mpr (Nat.mul_div_le ..)

-- A part is as large as it is wanted, if the line is.
theorem min_le_div_of_parts (ht : 0 < tile) : min tile size ≤ size / max (size / tile) 1 := by
  by_cases hlt : size < tile
  case pos => simp [Nat.div_eq_of_lt hlt]
  case neg =>
    have hn : 0 < size / tile := Nat.div_pos (Nat.not_lt.mp hlt) ht
    rw [Nat.max_eq_left hn, Nat.le_div_iff_mul_le hn]
    exact Nat.le_trans (Nat.mul_le_mul_right _ (Nat.min_le_left ..)) (Nat.mul_div_le ..)

end Parts

namespace TileGrid

variable {g : TileGrid} {width height tileWidth tileHeight tx ty x y : UInt32}

-- How far a tile goes along one side of the picture.
def extent (size n step i : UInt32) : UInt32 :=
  if i = n - 1 then size - i * step else step

theorem bounds_eq : g.bounds tx ty = ⟨tx * g.tileWidth, ty * g.tileHeight,
    extent g.width g.nx g.tileWidth tx, extent g.height g.ny g.tileHeight ty⟩ :=
  rfl

section Cuts

variable {size n step tile i : UInt32}

theorem toNat_tileCount : (tileCount size tile).toNat = max (size.toNat / max tile.toNat 1) 1 := by
  simp [tileCount, UInt32.toNat_max]

theorem mod_tileCount_lt (h : size ≠ 0) :
    size.toNat % (tileCount size tile).toNat < size.toNat / (tileCount size tile).toNat := by
  have hpos : 0 < size.toNat := Nat.pos_of_ne_zero fun hz => h (UInt32.toNat_inj.mp hz)
  rw [toNat_tileCount]
  exact mod_lt_div_of_parts hpos (Nat.le_max_right ..)

theorem min_le_div_tileCount : min (max tile 1) size ≤ size / tileCount size tile := by
  rw [UInt32.le_iff_toNat_le, UInt32.toNat_min, UInt32.toNat_max, UInt32.toNat_div, toNat_tileCount]
  exact min_le_div_of_parts (Nat.le_max_right ..)

namespace Cuts

theorem step_pos (h : Cuts size n step) : 0 < step.toNat :=
  h.step ▸ Nat.div_pos h.le h.pos

variable (h : Cuts size n step) (hi : i < n)
include h hi

theorem toNat_extent :
    (extent size n step i).toNat =
      if i.toNat + 1 = n.toNat then size.toNat - i.toNat * (size.toNat / n.toNat)
      else size.toNat / n.toNat := by
  have hlength := congrArg List.length (h.part_eq hi)
  rw [part, List.length_range', List.length_range'] at hlength
  exact hlength.symm

theorem start_add_extent_le : (i * step).toNat + (extent size n step i).toNat ≤ size.toNat := by
  have hi' := UInt32.lt_iff_toNat_lt.mp hi
  rw [h.toNat_start hi, h.toNat_extent hi]
  split
  case isTrue  => rw [Nat.add_sub_cancel' (start_le size.toNat hi')]
  case isFalse => exact mul_div_le_of_lt size.toNat hi'

theorem step_le_extent : step.toNat ≤ (extent size n step i).toNat := by
  rw [h.toNat_extent hi, h.step]
  split
  case isTrue hlast => exact sub_start_of_last hlast ▸ Nat.le_add_right ..
  case isFalse      => exact Nat.le_refl _

theorem extent_lt (hrest : size.toNat % n.toNat < size.toNat / n.toNat) :
    (extent size n step i).toNat < 2 * step.toNat := by
  rw [h.toNat_extent hi, h.step, Nat.two_mul]
  split
  case isTrue hlast => exact sub_start_of_last hlast ▸ Nat.add_lt_add_left hrest _
  case isFalse      => exact Nat.lt_add_of_pos_left (Nat.zero_lt_of_lt hrest)

end Cuts

end Cuts

end TileGrid

-- The layout of a grid, the bounds of a tile and the tile of a pixel, with every number taken in
-- the natural numbers.
namespace Exact

def tileCount? (size tile : UInt32) : Option UInt32 := do
  return max (← div? size (max tile 1)) 1

def layout? (width height tileWidth tileHeight : UInt32) : Option TileGrid := do
  let nx ← tileCount? width tileWidth
  let ny ← tileCount? height tileHeight
  return ⟨nx, ny, ← div? width nx, ← div? height ny, width, height⟩

def extent? (size n step i start : UInt32) : Option UInt32 := do
  if i = (← sub? n 1) then sub? size start else return step

def bounds? (g : TileGrid) (tx ty : UInt32) : Option Rect := do
  let x ← mul? tx g.tileWidth
  let y ← mul? ty g.tileHeight
  let width ← extent? g.width g.nx g.tileWidth tx x
  let height ← extent? g.height g.ny g.tileHeight ty y
  return ⟨x, y, width, height⟩

def tileOf? (g : TileGrid) (x y : UInt32) : Option (UInt32 × UInt32) := do
  let tx := min (← div? x (max g.tileWidth 1)) (← sub? g.nx 1)
  let ty := min (← div? y (max g.tileHeight 1)) (← sub? g.ny 1)
  return (tx, ty)

open TileGrid

variable {g : TileGrid} {width height tileWidth tileHeight tx ty x y : UInt32}

section Cuts

variable {size n step i : UInt32} (h : Cuts size n step)
include h

theorem sub?_one_of_cuts : sub? n 1 = some (n - 1) :=
  sub?_eq_some h.pos

theorem mul?_of_cuts (hi : i < n) : mul? i step = some (i * step) :=
  mul?_eq_some <| Nat.lt_of_le_of_lt
    (h.step ▸ start_le size.toNat (UInt32.lt_iff_toNat_lt.mp hi)) size.toNat_lt

theorem extent?_eq (hi : i < n) :
    extent? size n step i (i * step) = some (extent size n step i) := by
  have hstart := sub?_eq_some <|
    h.toNat_start hi ▸ start_le size.toNat (UInt32.lt_iff_toNat_lt.mp hi)
  simp only [extent?, extent, sub?_one_of_cuts h, hstart, bind, Option.bind]
  split <;> rfl

end Cuts

theorem tileCount?_eq (size tile : UInt32) : tileCount? size tile = some (tileCount size tile) := by
  rw [tileCount?, div?_max_one]
  rfl

theorem layout?_eq (hw : width ≠ 0) (hh : height ≠ 0) :
    layout? width height tileWidth tileHeight =
      some (layout width height tileWidth tileHeight) := by
  have hx := div?_eq_some (a := width) (@cuts_tileCount width tileWidth hw).pos
  have hy := div?_eq_some (a := height) (@cuts_tileCount height tileHeight hh).pos
  simp only [layout?, tileCount?_eq, hx, hy, bind, Option.bind]
  rfl

theorem bounds?_eq (h : g.WellFormed) (ht : g.HasTile tx ty) :
    bounds? g tx ty = some (g.bounds tx ty) := by
  simp only [bounds?, bounds_eq, mul?_of_cuts h.columns ht.left, mul?_of_cuts h.rows ht.right,
    extent?_eq h.columns ht.left, extent?_eq h.rows ht.right, bind, Option.bind]
  rfl

theorem tileOf?_eq (h : g.WellFormed) : tileOf? g x y = some (g.tileOf x y) := by
  simp only [tileOf?, div?_max_one, sub?_one_of_cuts h.columns, sub?_one_of_cuts h.rows, bind,
    Option.bind]
  rfl

end Exact

namespace TileGrid

variable {g : TileGrid} {width height tileWidth tileHeight tx ty x y : UInt32}

-- The tiles share out the pixels of a picture of this size. The last ones take what is left over,
-- which is less than another tile.
structure Tiles (g : TileGrid) (width height : UInt32) : Prop where
  covers_iff : ∀ x y, x < width → y < height → ∀ tx ty, g.HasTile tx ty →
    ((g.bounds tx ty).Covers x y ↔ g.tileOf x y = (tx, ty))
  hasTile    : ∀ x y, x < width → y < height → g.HasTile (g.tileOf x y).1 (g.tileOf x y).2
  inside     : ∀ tx ty, g.HasTile tx ty → (g.bounds tx ty).fitsWithin width height
  width      : ∀ tx ty, g.HasTile tx ty → g.tileWidth.toNat ≤ (g.bounds tx ty).width.toNat ∧
    (g.bounds tx ty).width.toNat < 2 * g.tileWidth.toNat
  height     : ∀ tx ty, g.HasTile tx ty → g.tileHeight.toNat ≤ (g.bounds tx ty).height.toNat ∧
    (g.bounds tx ty).height.toNat < 2 * g.tileHeight.toNat

namespace WellFormed

variable (h : g.WellFormed)
include h

-- What is cropped for a tile are its pixels.
theorem covers_bounds_iff (ht : g.HasTile tx ty) :
    (g.bounds tx ty).Covers x y ↔ g.Contains tx ty x y := by
  rw [Contains, h.columns.part_eq ht.left, h.rows.part_eq ht.right, List.mem_range'_1,
    List.mem_range'_1, Rect.Covers, UInt32.le_iff_toNat_le, UInt32.le_iff_toNat_le]
  exact (and_iff_right ht).symm

theorem fitsWithin_bounds (ht : g.HasTile tx ty) :
    (g.bounds tx ty).fitsWithin g.width g.height := by
  have hx := Nat.lt_of_lt_of_le h.columns.step_pos (h.columns.step_le_extent ht.left)
  have hy := Nat.lt_of_lt_of_le h.rows.step_pos (h.rows.step_le_extent ht.right)
  have hright := h.columns.start_add_extent_le ht.left
  have hbottom := h.rows.start_add_extent_le ht.right
  simp [bounds_eq, Rect.fitsWithin, Rect.isEmpty, Rect.right, Rect.bottom, hright, hbottom,
    ← UInt32.toNat_inj, Nat.ne_of_gt hx, Nat.ne_of_gt hy, -UInt32.toNat_mul]

theorem tiles (hx : g.width.toNat % g.nx.toNat < g.width.toNat / g.nx.toNat)
    (hy : g.height.toNat % g.ny.toNat < g.height.toNat / g.ny.toNat) :
    g.Tiles g.width g.height where
  covers_iff x y hx hy tx ty ht := by
    rw [h.covers_bounds_iff ht]
    exact ⟨h.tileOf_eq, fun he => by simpa [he] using h.contains_tileOf hx hy⟩
  hasTile _ _ hx hy := (h.contains_tileOf hx hy).left
  inside _ _        := h.fitsWithin_bounds
  width _ _ ht      := ⟨h.columns.step_le_extent ht.left, h.columns.extent_lt ht.left hx⟩
  height _ _ ht     := ⟨h.rows.step_le_extent ht.right, h.rows.extent_lt ht.right hy⟩

end WellFormed

-- The tiles of the layout are at least as large as they are wanted, as far as the picture is, and
-- there are no more of them than there are pixels.
theorem layout_tiles (hw : 1 ≤ width) (hh : 1 ≤ height) :
    (layout width height tileWidth tileHeight).Tiles width height ∧
      (layout width height tileWidth tileHeight).nx.toNat *
        (layout width height tileWidth tileHeight).ny.toNat ≤ width.toNat * height.toNat ∧
      min (max tileWidth 1) width ≤ (layout width height tileWidth tileHeight).tileWidth ∧
      min (max tileHeight 1) height ≤ (layout width height tileWidth tileHeight).tileHeight ∧
      Exact.layout? width height tileWidth tileHeight =
        some (layout width height tileWidth tileHeight) ∧
      (∀ tx ty, (layout width height tileWidth tileHeight).HasTile tx ty →
        Exact.bounds? (layout width height tileWidth tileHeight) tx ty =
          some ((layout width height tileWidth tileHeight).bounds tx ty)) ∧
      ∀ x y, Exact.tileOf? (layout width height tileWidth tileHeight) x y =
        some ((layout width height tileWidth tileHeight).tileOf x y) := by
  have hw : width ≠ 0 := fun hz => absurd hw (hz ▸ by decide)
  have hh : height ≠ 0 := fun hz => absurd hh (hz ▸ by decide)
  have h := @wellFormed_layout width height tileWidth tileHeight hw hh
  exact ⟨h.tiles (mod_tileCount_lt hw) (mod_tileCount_lt hh),
    Nat.mul_le_mul h.columns.le h.rows.le, min_le_div_tileCount, min_le_div_tileCount,
    Exact.layout?_eq hw hh, fun _ _ => Exact.bounds?_eq h, fun _ _ => Exact.tileOf?_eq h⟩

-- Three columns of tiles, of which the last is two pixels wider, and as many rows as there are
-- pixels.
theorem layout_tiles_wideLast :
    1 ≤ (50 : UInt32) ∧ 1 ≤ (40 : UInt32) ∧
      (layout 50 40 16 0).tileOf 49 39 = (2, 39) ∧
      (layout 50 40 16 0).bounds 2 39 = ⟨32, 39, 18, 1⟩ ∧
      ∀ tx ty, (layout 50 40 16 0).HasTile tx ty →
        ((layout 50 40 16 0).bounds tx ty).Covers 49 39 → (tx, ty) = (2, 39) := by
  have h := (@layout_tiles 50 40 16 0 (by decide) (by decide)).left
  have hof : (layout 50 40 16 0).tileOf 49 39 = (2, 39) := by decide
  refine ⟨by decide, by decide, hof, by decide, fun tx ty ht hc => ?_⟩
  exact ((h.covers_iff 49 39 (by decide) (by decide) tx ty ht).mp hc).symm.trans hof

end TileGrid

end PagePrep
