import Mathlib.Data.List.FinRange
import Mathlib.Tactic.Common
import PagePrep.Grid

-- A grid is determined by its size and its cells, and says of each cell what it was made from.

namespace PagePrep

section Rows

variable {α : Type} {rows length x y : Nat} {f : Nat → Nat → α}

theorem rowMajor_mod (hx : x < length) : (y * length + x) % length = x := by
  rw [Nat.mul_comm, Nat.mul_add_mod, Nat.mod_eq_of_lt hx]

theorem rowMajor_div (hx : x < length) : (y * length + x) / length = y := by
  rw [Nat.mul_comm, Nat.mul_add_div (Nat.zero_lt_of_lt hx), Nat.div_eq_of_lt hx, Nat.add_zero]

theorem rowMajor_eq_iff {x' y' : Nat} (hx : x < length) (hx' : x' < length) :
    y * length + x = y' * length + x' ↔ y = y' ∧ x = x' := by
  constructor
  case mp =>
    intro h
    rw [←rowMajor_div (y := y) hx, h, rowMajor_div hx', ←rowMajor_mod (y := y) hx, h,
      rowMajor_mod hx']
    exact ⟨rfl, rfl⟩
  case mpr =>
    rintro ⟨rfl, rfl⟩
    rfl

theorem rowMajor_lt (hy : y < rows) (hx : x < length) : y * length + x < rows * length :=
  calc y * length + x
    _ < y * length + length := Nat.add_lt_add_left hx _
    _ = (y + 1) * length    := (Nat.succ_mul ..).symm
    _ ≤ rows * length       := Nat.mul_le_mul_right _ hy

-- What is written row by row, as one list.
theorem flatMap_rows :
    ((List.range rows).flatMap fun y => (List.range length).map (f y)) =
      (List.range (rows * length)).map fun i => f (i / length) (i % length) := by
  induction rows
  case zero => simp
  case succ rows ih =>
    rw [List.range_succ, List.flatMap_append, ih, Nat.succ_mul, List.range_add, List.map_append,
      List.flatMap_singleton, List.map_map]
    refine congrArg _ <| List.map_congr_left fun x hx => ?_
    have hx := List.mem_range.mp hx
    rw [Function.comp_apply, rowMajor_div hx, rowMajor_mod hx]

theorem getElem?_flatMap_rows (hy : y < rows) (hx : x < length) :
    ((List.range rows).flatMap fun y => (List.range length).map (f y))[y * length + x]? =
      some (f y x) := by
  rw [flatMap_rows, List.getElem?_map, List.getElem?_range (rowMajor_lt hy hx), Option.map_some,
    rowMajor_div hx, rowMajor_mod hx]

end Rows

section Loops

variable {α : Type} {a : α} {cells : Array α} {start length n i x x' y y' : Nat}

theorem getElem?_fillCells :
    (fillCells a start length cells)[i]? =
      if start ≤ i ∧ i < start + length then cells[i]?.map fun _ => a else cells[i]? := by
  induction length
  case zero => rw [if_neg (by omega)]; rfl
  case succ length ih =>
    rw [fillCells, Nat.fold_succ, ←fillCells, Array.getElem?_setIfInBounds, ih]
    grind

-- A part of each of `n` rows of a store, from row `y` on.
theorem getElem?_fold_fillCells {width : Nat} (hx' : x' < width) (hfits : x + length ≤ width) :
    (n.fold (fun i _ => fillCells a ((y + i) * width + x) length) cells)[y' * width + x']? =
      if (x ≤ x' ∧ x' < x + length) ∧ y ≤ y' ∧ y' < y + n then
        cells[y' * width + x']?.map fun _ => a
      else
        cells[y' * width + x']? := by
  induction n
  case zero => rw [if_neg (by omega)]; rfl
  case succ n ih =>
    have hrow : (y + n) * width + x ≤ y' * width + x' ∧
        y' * width + x' < (y + n) * width + x + length ↔
          y' = y + n ∧ x ≤ x' ∧ x' < x + length := by
      rcases Nat.lt_trichotomy y' (y + n) with hy | rfl | hy
      case inl =>
        have := rowMajor_lt hy hx'
        omega
      case inr.inl => omega
      case inr.inr =>
        have := Nat.mul_le_mul_right width (Nat.succ_le_of_lt hy)
        rw [Nat.succ_mul] at this
        omega
    rw [Nat.fold_succ, getElem?_fillCells, ih]
    simp only [hrow]
    grind

-- A loop that writes down a column of a store changes that column only.
theorem getElem?_fold_column {f : Nat → α} (hx : x < length) (hx' : x' < length) :
    (n.fold (fun y _ cells => cells.setIfInBounds (y * length + x) (f y)) cells)[
        y' * length + x']? =
      if y' < n ∧ x' = x then cells[y' * length + x']?.map fun _ => f y'
      else cells[y' * length + x']? := by
  induction n
  case zero => rw [if_neg (by omega)]; rfl
  case succ n ih =>
    rw [Nat.fold_succ, Array.getElem?_setIfInBounds, ih]
    simp only [rowMajor_eq_iff hx hx']
    grind

end Loops

theorem ofNat_lt_of_lt_toNat {n : Nat} {size : UInt32} (h : n < size.toNat) :
    UInt32.ofNat n < size :=
  UInt32.lt_iff_toNat_lt.mpr <| by
    rwa [UInt32.toNat_ofNat_of_lt' (Nat.lt_trans h size.toNat_lt)]

namespace Grid

variable {α β : Type} {g g₁ g₂ : Grid α} {width height x y x' y' : UInt32}

theorem offset_mod_width (h : g.Contains x y) : g.offset x y % g.width.toNat = x.toNat :=
  rowMajor_mod (UInt32.lt_iff_toNat_lt.mp h.left)

theorem offset_div_width (h : g.Contains x y) : g.offset x y / g.width.toNat = y.toNat :=
  rowMajor_div (UInt32.lt_iff_toNat_lt.mp h.left)

-- Each cell of the store has a column and a row.
theorem exists_offset_eq {i : Nat} (h : i < g.cells.size) :
    ∃ x y, g.Contains x y ∧ g.offset x y = i := by
  let j : Fin (g.width.toNat * g.height.toNat) := ⟨i, g.size_cells ▸ h⟩
  refine ⟨_, _, ofFn.place g.width g.height j, ?_⟩
  have hw : 0 < g.width.toNat := Nat.pos_of_ne_zero fun h => by simpa [h] using j.isLt
  have hx : i % g.width.toNat < UInt32.size := Nat.lt_trans (Nat.mod_lt _ hw) g.width.toNat_lt
  have hy : i / g.width.toNat < UInt32.size :=
    Nat.lt_trans (Nat.div_lt_of_lt_mul j.isLt) g.height.toNat_lt
  simp only [j, offset, UInt32.toNat_ofNat_of_lt' hx, UInt32.toNat_ofNat_of_lt' hy]
  exact Nat.div_add_mod' i _

theorem get?_eq_some_get (h : g.Contains x y) : g.get? x y = some (g.get x y h) :=
  dif_pos h

theorem get?_eq_none_iff : g.get? x y = none ↔ ¬g.Contains x y := by
  simp [get?]

theorem isSome_get?_iff : (g.get? x y).isSome ↔ g.Contains x y := by
  simp [get?]

theorem get?_eq_getElem? (h : g.Contains x y) : g.get? x y = g.cells[g.offset x y]? := by
  rw [get?_eq_some_get h, get, Array.getElem?_eq_getElem]

-- No two cells have the same number.
theorem offset_eq_iff (h : g.Contains x y) (h' : g.Contains x' y') :
    g.offset x' y' = g.offset x y ↔ x' = x ∧ y' = y := by
  have hx := UInt32.lt_iff_toNat_lt.mp h.left
  have hx' := UInt32.lt_iff_toNat_lt.mp h'.left
  rw [offset, offset, rowMajor_eq_iff hx' hx, UInt32.toNat_inj, UInt32.toNat_inj, and_comm]

theorem ext_get? (hw : g₁.width = g₂.width) (hh : g₁.height = g₂.height)
    (h : ∀ x y, g₁.get? x y = g₂.get? x y) : g₁ = g₂ := by
  refine Grid.ext hw hh (Array.ext ?_ fun i h₁ h₂ => ?_)
  · rw [g₁.size_cells, g₂.size_cells, hw, hh]
  · have ⟨x, y, hc, ho⟩ := exists_offset_eq h₁
    have hc' : g₂.Contains x y := by rwa [Contains, ←hw, ←hh]
    have ho' : g₂.offset x y = i := by rw [←ho, offset, offset, hw]
    have hg := h x y
    rw [get?_eq_some_get hc, get?_eq_some_get hc', Option.some.injEq] at hg
    simpa only [get, ho, ho'] using hg

theorem get?_set {a : α} (h : g.Contains x y) :
    (g.set x y a h).get? x' y' = if x' = x ∧ y' = y then some a else g.get? x' y' := by
  by_cases h' : g.Contains x' y'
  case pos =>
    have hs : (g.set x y a h).Contains x' y' := h'
    rw [get?_eq_getElem? hs, get?_eq_getElem? h']
    change (g.cells.set (g.offset x y) a (offset_lt h))[g.offset x' y']? = _
    rw [Array.getElem?_set]
    exact if_congr (eq_comm.trans (offset_eq_iff h h')) rfl rfl
  case neg =>
    have hs : ¬(g.set x y a h).Contains x' y' := h'
    have hne : ¬(x' = x ∧ y' = y) := by
      rintro ⟨rfl, rfl⟩
      exact h' h
    rw [get?_eq_none_iff.mpr h', get?_eq_none_iff.mpr hs, if_neg hne]

section OfFn

variable {f : (x y : UInt32) → x < width ∧ y < height → α}

@[simp]
theorem width_ofFn : (ofFn width height f).width = width :=
  rfl

@[simp]
theorem height_ofFn : (ofFn width height f).height = height :=
  rfl

theorem get_ofFn (h : (ofFn width height f).Contains x y) :
    (ofFn width height f).get x y h = f x y h := by
  have hx := offset_mod_width h
  have hy := offset_div_width h
  simp only [get, ofFn, Array.getElem_ofFn]
  congr 1
  case e_x => exact (congrArg UInt32.ofNat hx).trans UInt32.ofNat_toNat
  case e_y => exact (congrArg UInt32.ofNat hy).trans UInt32.ofNat_toNat

theorem get?_ofFn :
    (ofFn width height f).get? x y =
      if h : x < width ∧ y < height then some (f x y h) else none := by
  simp only [get?, get_ofFn]
  rfl

-- Each cell made from the cell of another grid in the same place.
theorem get?_ofFn_get {f : UInt32 → UInt32 → α → β} :
    (ofFn g.width g.height fun x y h => f x y (g.get x y h)).get? x y =
      (g.get? x y).map (f x y) := by
  rw [get?_ofFn]
  by_cases h : x < g.width ∧ y < g.height
  case pos =>
    have hc : g.Contains x y := h
    rw [dif_pos h, get?_eq_some_get hc, Option.map_some]
  case neg =>
    have hc : ¬g.Contains x y := h
    rw [dif_neg h, get?_eq_none_iff.mpr hc, Option.map_none]

-- The cells are stored row by row.
theorem toList_cells_ofFn {f : UInt32 → UInt32 → α} :
    (ofFn width height fun x y _ => f x y).cells.toList =
      (List.range height.toNat).flatMap fun y =>
        (List.range width.toNat).map fun x => f (.ofNat x) (.ofNat y) := by
  rw [flatMap_rows, Nat.mul_comm, ofFn, Array.toList_ofFn, List.ofFn_eq_map,
    ←List.map_coe_finRange_eq_range, List.map_map]
  rfl

end OfFn

@[simp]
theorem get?_map {f : α → β} : (g.map f).get? x y = (g.get? x y).map f := by
  by_cases h : g.Contains x y
  case pos =>
    have hm : (g.map f).Contains x y := h
    rw [get?_eq_some_get h, get?_eq_some_get hm, Option.map_some]
    simp only [get, map, Array.getElem_map, offset]
  case neg =>
    have hm : ¬(g.map f).Contains x y := h
    rw [get?_eq_none_iff.mpr h, get?_eq_none_iff.mpr hm, Option.map_none]

section Transpose

variable [Inhabited α]

@[simp]
theorem width_transpose : g.transpose.width = g.height :=
  rfl

@[simp]
theorem height_transpose : g.transpose.height = g.width :=
  rfl

-- What the first `n` rows leave in a store that they are scattered over.
theorem getElem?_fold_scatterRow {n x y : Nat} {out : Array α} (hn : n ≤ g.height.toNat)
    (hx : x < g.width.toNat) (hy : y < g.height.toNat) :
    (n.fold (fun y _ => g.scatterRow y) out)[x * g.height.toNat + y]? =
      if y < n then
        out[x * g.height.toNat + y]?.map fun _ => g.cells[y * g.width.toNat + x]!
      else
        out[x * g.height.toNat + y]? := by
  induction n
  case zero => rfl
  case succ n ih =>
    rw [Nat.fold_succ, scatterRow, getElem?_fold_column hn hy, ih (Nat.le_of_succ_le hn)]
    grind

-- Every cell is written once, so nothing is left of the store that the cells are scattered over.
@[simp]
theorem get?_transpose : g.transpose.get? x y = g.get? y x := by
  by_cases h : g.Contains y x
  case pos =>
    have hy := UInt32.lt_iff_toNat_lt.mp h.left
    have hx := UInt32.lt_iff_toNat_lt.mp h.right
    have ht : g.transpose.Contains x y := h.symm
    have hlt : y.toNat * g.height.toNat + x.toNat < g.height.toNat * g.width.toNat :=
      Nat.mul_comm g.width.toNat _ ▸ rowMajor_lt hy hx
    rw [get?_eq_getElem? ht, offset, transpose, getElem?_fold_scatterRow (Nat.le_refl _) hy hx,
      if_pos hx, Array.getElem?_replicate, if_pos hlt, Option.map_some, get?_eq_getElem? h,
      Array.getElem?_eq_getElem (offset_lt h)]
    exact congrArg some (getElem!_pos g.cells (g.offset y x) (offset_lt h))
  case neg =>
    have ht : ¬g.transpose.Contains x y := (h ·.symm)
    rw [get?_eq_none_iff.mpr h, get?_eq_none_iff.mpr ht]

theorem transpose_transpose : g.transpose.transpose = g :=
  ext_get? rfl rfl fun _ _ => by simp

end Transpose

end Grid

end PagePrep
