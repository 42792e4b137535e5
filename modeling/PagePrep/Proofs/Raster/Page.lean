import PagePrep.Proofs.Grid
import PagePrep.Raster.Page

-- A rectangle that is cleared row by row is cleared as a whole, and nothing beside it.

namespace PagePrep.Page

variable {page : Page} {rect : Rect} {x y : UInt32}

theorem contains_cleared_iff : (page.cleared rect).Contains x y ↔ page.Contains x y :=
  Iff.rfl

theorem get?_cleared (h : rect.fitsWithin page.width page.height) :
    (page.cleared rect).get? x y =
      if rect.Covers x y then (page.get? x y).map fun _ => false else page.get? x y := by
  simp only [Rect.fitsWithin, Bool.and_eq_true, decide_eq_true_eq] at h
  by_cases hc : page.Contains x y
  case pos =>
    have hx := UInt32.lt_iff_toNat_lt.mp hc.left
    rw [Grid.get?_eq_getElem? (contains_cleared_iff.mpr hc), Grid.get?_eq_getElem? hc]
    refine (getElem?_fold_fillCells hx h.left.right).trans ?_
    simp only [Rect.Covers, Rect.right, Rect.bottom, UInt32.le_iff_toNat_le, Grid.offset]
  case neg =>
    simp [Grid.get?_eq_none_iff.mpr hc, Grid.get?_eq_none_iff.mpr (hc ∘ contains_cleared_iff.mp)]

end PagePrep.Page
