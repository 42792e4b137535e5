namespace PagePrep

-- A rectangular grid, stored row by row from the top: the cell in column `x` of row `y` is number
-- `y * width + x`. The size of the store is part of the type, so a grid can not be ragged.
@[ext]
structure Grid (α : Type) where
  width  : UInt32
  height : UInt32
  cells  : Array α
  size_cells : cells.size = width.toNat * height.toNat

variable {α β : Type}

-- The cells with the numbers from `start` on, `length` of them, become `a`.
def fillCells (a : α) (start length : Nat) (cells : Array α) : Array α :=
  length.fold (fun i _ cells => cells.setIfInBounds (start + i) a) cells

-- A loop keeps the size of a store that each of its turns keeps.
theorem size_fold {n size : Nat} {f : (i : Nat) → i < n → Array α → Array α} {cells : Array α}
    (h : cells.size = size) (hf : ∀ i hi cells, cells.size = size → (f i hi cells).size = size) :
    (n.fold f cells).size = size := by
  induction n
  case zero      => exact h
  case succ n ih => exact hf n _ _ (ih fun i hi => hf i _)

@[simp]
theorem size_fillCells {a : α} {start length : Nat} {cells : Array α} :
    (fillCells a start length cells).size = cells.size :=
  size_fold rfl fun _ _ _ h => Array.size_setIfInBounds.trans h

namespace Grid

instance [DecidableEq α] : DecidableEq (Grid α) := fun g₁ g₂ =>
  decidable_of_iff (g₁.width = g₂.width ∧ g₁.height = g₂.height ∧ g₁.cells = g₂.cells)
    ⟨fun ⟨hw, hh, hc⟩ => Grid.ext hw hh hc, fun h => h ▸ ⟨rfl, rfl, rfl⟩⟩

def Contains (g : Grid α) (x y : UInt32) : Prop :=
  x < g.width ∧ y < g.height

instance (g : Grid α) (x y : UInt32) : Decidable (g.Contains x y) :=
  inferInstanceAs (Decidable (_ ∧ _))

def offset (g : Grid α) (x y : UInt32) : Nat :=
  y.toNat * g.width.toNat + x.toNat

theorem offset_lt {g : Grid α} {x y : UInt32} (h : g.Contains x y) :
    g.offset x y < g.cells.size := by
  have hx : x.toNat + 1 ≤ g.width.toNat := UInt32.lt_iff_toNat_lt.mp h.1
  have hy : y.toNat + 1 ≤ g.height.toNat := UInt32.lt_iff_toNat_lt.mp h.2
  calc g.offset x y < y.toNat * g.width.toNat + g.width.toNat := Nat.add_lt_add_left hx _
    _ = (y.toNat + 1) * g.width.toNat := (Nat.succ_mul _ _).symm
    _ ≤ g.height.toNat * g.width.toNat := Nat.mul_le_mul_right _ hy
    _ = g.cells.size := by rw [g.size_cells, Nat.mul_comm]

def get (g : Grid α) (x y : UInt32) (h : g.Contains x y) : α :=
  have := offset_lt h
  g.cells[g.offset x y]

def get? (g : Grid α) (x y : UInt32) : Option α :=
  if h : g.Contains x y then some (g.get x y h) else none

def getD (g : Grid α) (x y : UInt32) (a : α) : α :=
  (g.get? x y).getD a

-- The cells are numbered as they are stored; `f` is asked for each with its column and its row.
def ofFn (width height : UInt32) (f : (x y : UInt32) → x < width ∧ y < height → α) : Grid α where
  width
  height
  cells := Array.ofFn fun i : Fin (width.toNat * height.toNat) =>
    f (.ofNat (i.val % width.toNat)) (.ofNat (i.val / width.toNat)) (place i)
  size_cells := Array.size_ofFn
where
  place (i : Fin (width.toNat * height.toNat)) :
      UInt32.ofNat (i.val % width.toNat) < width ∧ UInt32.ofNat (i.val / width.toNat) < height := by
    have hw : 0 < width.toNat := Nat.pos_of_ne_zero fun h => by simpa [h] using i.isLt
    have hx := Nat.mod_lt i.val hw
    have hy : i.val / width.toNat < height.toNat := Nat.div_lt_of_lt_mul i.isLt
    have hx' := Nat.lt_trans hx width.toNat_lt
    have hy' := Nat.lt_trans hy height.toNat_lt
    exact ⟨UInt32.lt_iff_toNat_lt.mpr (by rwa [UInt32.toNat_ofNat_of_lt' hx']),
      UInt32.lt_iff_toNat_lt.mpr (by rwa [UInt32.toNat_ofNat_of_lt' hy'])⟩

def ofCells? (width height : UInt32) (cells : Array α) : Option (Grid α) :=
  if h : cells.size = width.toNat * height.toNat then some ⟨width, height, cells, h⟩ else none

def replicate (width height : UInt32) (a : α) : Grid α where
  width
  height
  cells := Array.replicate (width.toNat * height.toNat) a
  size_cells := Array.size_replicate

def map (f : α → β) (g : Grid α) : Grid β where
  width  := g.width
  height := g.height
  cells  := g.cells.map f
  size_cells := by rw [Array.size_map, g.size_cells]

def set (g : Grid α) (x y : UInt32) (a : α) (h : g.Contains x y) : Grid α where
  width  := g.width
  height := g.height
  cells  := g.cells.set (g.offset x y) a (offset_lt h)
  size_cells := by rw [Array.size_set, g.size_cells]

-- The cells of row `y` go to the places of column `y` in a store with `g.height` columns.
def scatterRow [Inhabited α] (g : Grid α) (y : Nat) (out : Array α) : Array α :=
  g.width.toNat.fold (fun x _ out =>
    out.setIfInBounds (x * g.height.toNat + y) g.cells[y * g.width.toNat + x]!) out

theorem size_scatterRow [Inhabited α] {g : Grid α} {y : Nat} {out : Array α} :
    (g.scatterRow y out).size = out.size :=
  size_fold rfl fun _ _ _ h => Array.size_setIfInBounds.trans h

def transpose [Inhabited α] (g : Grid α) : Grid α where
  width  := g.height
  height := g.width
  cells  := g.height.toNat.fold (fun y _ => g.scatterRow y)
    (Array.replicate (g.height.toNat * g.width.toNat) default)
  size_cells := size_fold Array.size_replicate fun _ _ _ => size_scatterRow.trans

end Grid

end PagePrep
