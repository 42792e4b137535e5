import Mathlib

-- How numbers of a floating-point format compare. They are not ordered, as one of them is no
-- number.

namespace PagePrep.FloatOrder

open Float.Model

variable {x y : Float} {u v : Float32}

theorem lt_iff : x < y ↔ x.toModel.unpack.compare y.toModel.unpack = some .lt := by
  constructor
  case mp =>
    intro h
    have h : x.toModel.unpack.lt y.toModel.unpack := of_decide_eq_true h
    exact eq_of_beq h
  case mpr =>
    intro h
    have h : x.toModel.unpack.lt y.toModel.unpack := beq_iff_eq.mpr h
    exact decide_eq_true h

theorem le_iff : x ≤ y ↔ (x.toModel.unpack.compare y.toModel.unpack).any Ordering.isLE :=
  ⟨of_decide_eq_true, decide_eq_true⟩

theorem single_lt_iff : u < v ↔ u.toModel.unpack.compare v.toModel.unpack = some .lt := by
  constructor
  case mp =>
    intro h
    have h : u.toModel.unpack.lt v.toModel.unpack := of_decide_eq_true h
    exact eq_of_beq h
  case mpr =>
    intro h
    have h : u.toModel.unpack.lt v.toModel.unpack := beq_iff_eq.mpr h
    exact decide_eq_true h

theorem single_le_iff : u ≤ v ↔ (u.toModel.unpack.compare v.toModel.unpack).any Ordering.isLE :=
  ⟨of_decide_eq_true, decide_eq_true⟩

section Unpacked

variable {f g : UnpackedFloat}

theorem compare_swap : (f.compare g).map Ordering.swap = g.compare f := by
  cases f
  case notANumber => cases g <;> rfl
  case zero =>
    cases g
    case infinity t     => cases t <;> rfl
    case finite t _ _ _ => cases t <;> rfl
    all_goals rfl
  case infinity s =>
    cases g
    case infinity t     => cases s <;> cases t <;> rfl
    case finite t _ _ _ => cases s <;> cases t <;> rfl
    all_goals cases s <;> rfl
  case finite s m e _ =>
    cases g
    case notANumber     => rfl
    case zero           => cases s <;> rfl
    case infinity t     => cases s <;> cases t <;> rfl
    case finite t n d _ =>
      have he : (compare e d).swap = compare d e := Std.OrientedCmp.eq_swap.symm
      have hm : (compare m n).swap = compare n m := Std.OrientedCmp.eq_swap.symm
      cases s <;> cases t <;> simp [UnpackedFloat.compare, Ordering.swap_then, he, hm]

-- What is no number does not compare.
theorem ne_notANumber_of_isLE (h : (f.compare g).any Ordering.isLE) :
    f ≠ .notANumber ∧ g ≠ .notANumber := by
  constructor
  case left =>
    rintro rfl
    cases h
  case right =>
    rintro rfl
    cases f <;> cases h

end Unpacked

end PagePrep.FloatOrder
