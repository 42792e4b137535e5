import Mathlib
import PagePrep.Gray.Basic
import PagePrep.Gray.Tile
import PagePrep.Proofs.Grid

-- A line of pixels is cut into parts, and a picture into tiles by the parts of its columns and of
-- its rows. What is cropped for a tile are its pixels and no others, and the tile that is looked up
-- for a pixel is the one that has it.

namespace PagePrep

section Parts

variable {size n i x : Nat}

-- The pixels of part `i` of a line that is cut into `n`. All parts are of one size but the last,
-- which also takes what is left over.
def part (size n i : Nat) : List Nat :=
  List.range' (i * (size / n)) (if i + 1 = n then size - i * (size / n) else size / n)

-- No part begins behind the line, as all of them together fit.
theorem mul_div_le_of_lt (size : Nat) (hi : i < n) : i * (size / n) + size / n ≤ size :=
  calc i * (size / n) + size / n
    _ = (i + 1) * (size / n) := (Nat.succ_mul ..).symm
    _ ≤ n * (size / n)       := Nat.mul_le_mul_right _ hi
    _ ≤ size                 := Nat.mul_div_le ..

theorem start_le (size : Nat) (hi : i < n) : i * (size / n) ≤ size :=
  Nat.le_of_add_right_le (mul_div_le_of_lt size hi)

theorem lt_of_mem_part (hi : i < n) (hx : x ∈ part size n i) : x < size := by
  have hle := mul_div_le_of_lt size hi
  rw [part, List.mem_range'_1] at hx
  split at hx <;> omega

-- The part that has a pixel is told by a division, but the last part goes on to the end.
theorem mem_part_iff (hi : i < n) (hn : n ≤ size) (hx : x < size) :
    x ∈ part size n i ↔ min (x / (size / n)) (n - 1) = i := by
  have hpos : 0 < size / n := Nat.div_pos hn (Nat.zero_lt_of_lt hi)
  have hle := mul_div_le_of_lt size hi
  have hlo : i * (size / n) ≤ x ↔ i ≤ x / (size / n) := (Nat.le_div_iff_mul_le hpos).symm
  have hhi : x < i * (size / n) + size / n ↔ x / (size / n) < i + 1 := by
    rw [Nat.div_lt_iff_lt_mul hpos, Nat.succ_mul]
  rw [part, List.mem_range'_1]
  by_cases hlast : i + 1 = n
  case pos =>
    rw [if_pos hlast]
    omega
  case neg =>
    rw [if_neg hlast]
    omega

end Parts

namespace TileGrid

section Cuts

variable {size n step tile i x : UInt32}

-- A line is cut into at most as many parts as it has pixels, each of `step` pixels or more.
structure Cuts (size n step : UInt32) : Prop where
  pos  : 0 < n.toNat
  le   : n.toNat ≤ size.toNat
  step : step.toNat = size.toNat / n.toNat

theorem cuts_tileCount (h : size ≠ 0) :
    Cuts size (tileCount size tile) (size / tileCount size tile) := by
  have hz : size.toNat ≠ 0 := fun hz => h (UInt32.toNat_inj.mp hz)
  have hn : (tileCount size tile).toNat = max (size.toNat / max tile.toNat 1) 1 := by
    simp [tileCount, UInt32.toNat_max]
  constructor
  case pos  => exact hn ▸ Nat.le_max_right ..
  case le   => exact hn ▸ Nat.max_le.mpr ⟨Nat.div_le_self .., Nat.pos_of_ne_zero hz⟩
  case step => exact UInt32.toNat_div ..

namespace Cuts

variable (h : Cuts size n step)
include h

theorem toNat_start (hi : i < n) : (i * step).toNat = i.toNat * (size.toNat / n.toNat) := by
  have hle := start_le size.toNat (UInt32.lt_iff_toNat_lt.mp hi)
  rw [UInt32.toNat_mul, h.step, Nat.mod_eq_of_lt (Nat.lt_of_le_of_lt hle size.toNat_lt)]

theorem toNat_pred : (n - 1).toNat = n.toNat - 1 :=
  UInt32.toNat_sub_of_le n 1 (UInt32.le_iff_toNat_le.mpr h.pos)

theorem eq_pred_iff : i = n - 1 ↔ i.toNat + 1 = n.toNat := by
  have hpos := h.pos
  rw [←UInt32.toNat_inj, h.toNat_pred]
  omega

-- Words count the pixels of a part as well as numbers do.
theorem part_eq (hi : i < n) :
    part size.toNat n.toNat i.toNat =
      List.range' (i * step).toNat (if i = n - 1 then size - i * step else step).toNat := by
  have hstart := h.toNat_start hi
  have hle := start_le size.toNat (UInt32.lt_iff_toNat_lt.mp hi)
  have hrest : (size - i * step).toNat = size.toNat - (i * step).toNat :=
    UInt32.toNat_sub_of_le _ _ (UInt32.le_iff_toNat_le.mpr (hstart ▸ hle))
  rw [part]
  by_cases hlast : i = n - 1
  case pos => rw [if_pos hlast, if_pos (h.eq_pred_iff.mp hlast), hrest, hstart]
  case neg => rw [if_neg hlast, if_neg (hlast <| h.eq_pred_iff.mpr ·), hstart, h.step]

theorem mem_part_iff (hi : i < n) (hx : x < size) :
    x.toNat ∈ part size.toNat n.toNat i.toNat ↔ min (x / max step 1) (n - 1) = i := by
  have hstep : (max step 1).toNat = size.toNat / n.toNat := by
    rw [UInt32.toNat_max, h.step]
    exact Nat.max_eq_left (Nat.div_pos h.le h.pos)
  rw [PagePrep.mem_part_iff (UInt32.lt_iff_toNat_lt.mp hi) h.le (UInt32.lt_iff_toNat_lt.mp hx),
    ←UInt32.toNat_inj, UInt32.toNat_min, UInt32.toNat_div, hstep, h.toNat_pred]

theorem tile_lt : min (x / max step 1) (n - 1) < n := by
  have hpos := h.pos
  have hpred := h.toNat_pred
  rw [UInt32.lt_iff_toNat_lt, UInt32.toNat_min]
  omega

end Cuts

end Cuts

variable {g : TileGrid} {tx ty x y : UInt32}

-- A grid whose tiles can be told apart.
structure WellFormed (g : TileGrid) : Prop where
  columns : Cuts g.width g.nx g.tileWidth
  rows    : Cuts g.height g.ny g.tileHeight

theorem wellFormed_layout {width height tileWidth tileHeight : UInt32} (hw : width ≠ 0)
    (hh : height ≠ 0) : (layout width height tileWidth tileHeight).WellFormed :=
  ⟨cuts_tileCount hw, cuts_tileCount hh⟩

def HasTile (g : TileGrid) (tx ty : UInt32) : Prop :=
  tx < g.nx ∧ ty < g.ny

-- The pixel belongs to the tile.
def Contains (g : TileGrid) (tx ty x y : UInt32) : Prop :=
  g.HasTile tx ty ∧ x.toNat ∈ part g.width.toNat g.nx.toNat tx.toNat ∧
    y.toNat ∈ part g.height.toNat g.ny.toNat ty.toNat

instance : Decidable (g.Contains tx ty x y) :=
  inferInstanceAs (Decidable ((_ ∧ _) ∧ _ ∧ _))

theorem Contains.inside (hc : g.Contains tx ty x y) : x < g.width ∧ y < g.height := by
  have ⟨⟨htx, hty⟩, hx, hy⟩ := hc
  exact ⟨UInt32.lt_iff_toNat_lt.mpr <| lt_of_mem_part (UInt32.lt_iff_toNat_lt.mp htx) hx,
    UInt32.lt_iff_toNat_lt.mpr <| lt_of_mem_part (UInt32.lt_iff_toNat_lt.mp hty) hy⟩

theorem WellFormed.tileOf_eq (h : g.WellFormed) (hc : g.Contains tx ty x y) :
    g.tileOf x y = (tx, ty) := by
  have ⟨hlx, hly⟩ := hc.inside
  have ⟨⟨htx, hty⟩, hx, hy⟩ := hc
  rw [tileOf, (h.columns.mem_part_iff htx hlx).mp hx, (h.rows.mem_part_iff hty hly).mp hy]

-- Every pixel belongs to a tile, namely to the one that is looked up for it.
theorem WellFormed.contains_tileOf (h : g.WellFormed) (hx : x < g.width) (hy : y < g.height) :
    g.Contains (g.tileOf x y).1 (g.tileOf x y).2 x y := by
  have htx : (g.tileOf x y).1 < g.nx := h.columns.tile_lt
  have hty : (g.tileOf x y).2 < g.ny := h.rows.tile_lt
  exact ⟨⟨htx, hty⟩, (h.columns.mem_part_iff htx hx).mpr rfl, (h.rows.mem_part_iff hty hy).mpr rfl⟩

end TileGrid

namespace GrayImage

variable {image : GrayImage} {g : TileGrid} {tx ty : UInt32}

-- The samples of a tile, row by row.
def tileSamples (image : GrayImage) (g : TileGrid) (tx ty : UInt32) : Array UInt8 :=
  List.toArray <| (part g.height.toNat g.ny.toNat ty.toNat).flatMap fun y =>
    (part g.width.toNat g.nx.toNat tx.toNat).filterMap fun x => image.get? (.ofNat x) (.ofNat y)

-- The parts of a tile lie inside of the picture.
theorem get?_of_mem_part (hw : image.width = g.width) (hh : image.height = g.height)
    (ht : g.HasTile tx ty) {x y : Nat} (hx : x ∈ part g.width.toNat g.nx.toNat tx.toNat)
    (hy : y ∈ part g.height.toNat g.ny.toNat ty.toNat) :
    image.get? (.ofNat x) (.ofNat y) = some (image.getD (.ofNat x) (.ofNat y) 0) := by
  have hc : image.Contains (.ofNat x) (.ofNat y) := by
    rw [Grid.Contains, hw, hh]
    exact ⟨ofNat_lt_of_lt_toNat <| lt_of_mem_part (UInt32.lt_iff_toNat_lt.mp ht.left) hx,
      ofNat_lt_of_lt_toNat <| lt_of_mem_part (UInt32.lt_iff_toNat_lt.mp ht.right) hy⟩
  rw [Grid.getD, Grid.get?_eq_some_get hc, Option.getD_some]

theorem cells_crop_bounds (h : g.WellFormed) (hw : image.width = g.width)
    (hh : image.height = g.height) (ht : g.HasTile tx ty) :
    (image.crop (g.bounds tx ty)).cells = image.tileSamples g tx ty := by
  have hcolumns : part g.width.toNat g.nx.toNat tx.toNat =
      (List.range (g.bounds tx ty).width.toNat).map ((g.bounds tx ty).x.toNat + ·) :=
    (h.columns.part_eq ht.left).trans List.range'_eq_map_range
  have hrows : part g.height.toNat g.ny.toNat ty.toNat =
      (List.range (g.bounds tx ty).height.toNat).map ((g.bounds tx ty).y.toNat + ·) :=
    (h.rows.part_eq ht.right).trans List.range'_eq_map_range
  refine Array.toList_inj.mp ?_
  rw [crop, Grid.toList_cells_ofFn, tileSamples]
  calc _
    _ = (part g.height.toNat g.ny.toNat ty.toNat).flatMap fun y =>
        (part g.width.toNat g.nx.toNat tx.toNat).map fun x =>
          image.getD (.ofNat x) (.ofNat y) 0 := by
      simp [hcolumns, hrows, List.flatMap_map, UInt32.ofNat_add, Function.comp_def]
    _ = _ := by
      refine List.flatMap_congr fun y hy => ?_
      rw [←List.filterMap_eq_map]
      exact List.filterMap_congr fun x hx => (get?_of_mem_part hw hh ht hx hy).symm

theorem tileSamples_congr {other : GrayImage} (ht : g.HasTile tx ty)
    (h : ∀ x y, g.Contains tx ty x y → other.get? x y = image.get? x y) :
    other.tileSamples g tx ty = image.tileSamples g tx ty := by
  refine congrArg List.toArray <| List.flatMap_congr fun y hy => List.filterMap_congr fun x hx => ?_
  have hlx := lt_of_mem_part (UInt32.lt_iff_toNat_lt.mp ht.left) hx
  have hly := lt_of_mem_part (UInt32.lt_iff_toNat_lt.mp ht.right) hy
  refine h _ _ ⟨ht, ?_, ?_⟩
  · rwa [UInt32.toNat_ofNat_of_lt' (Nat.lt_trans hlx g.width.toNat_lt)]
  · rwa [UInt32.toNat_ofNat_of_lt' (Nat.lt_trans hly g.height.toNat_lt)]

end GrayImage

end PagePrep
