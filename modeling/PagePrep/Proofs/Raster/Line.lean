import Mathlib
import PagePrep.Proofs.Grid
import PagePrep.Proofs.Number.Native
import PagePrep.Proofs.Number.Word
import PagePrep.Raster.Page

-- A line of a page is the pixels between its ends, moved onto the page, whichever end comes first.
-- The part of it that is ink is a number between zero and one.

namespace PagePrep.Page

open Layout Float.Model

section Range

variable {n a b c : UInt32}

-- From one end to the other, both included.
def Between (a b c : UInt32) : Prop :=
  min a b ≤ c ∧ c ≤ max a b

def lowEnd (n a b : UInt32) : UInt32 :=
  min (min a b) (n - 1)

def highEnd (n a b : UInt32) : UInt32 :=
  min (max a b) (n - 1)

theorem toNat_lowEnd : (lowEnd n a b).toNat = min (min a.toNat b.toNat) (n - 1).toNat := by
  rw [lowEnd, UInt32.toNat_min, UInt32.toNat_min]

theorem toNat_highEnd : (highEnd n a b).toNat = min (max a.toNat b.toNat) (n - 1).toNat := by
  rw [highEnd, UInt32.toNat_min, UInt32.toNat_max]

theorem lowEnd_le_highEnd : (lowEnd n a b).toNat ≤ (highEnd n a b).toNat := by
  rw [toNat_lowEnd, toNat_highEnd]
  omega

theorem map_toNat_range : (range n a b).map UInt32.toNat = List.range' (lowEnd n a b).toNat
    ((highEnd n a b).toNat - (lowEnd n a b).toNat + 1) := by
  have hle := @lowEnd_le_highEnd n a b
  have hlt := (highEnd n a b).toNat_lt
  have hplace : ∀ i ∈ List.range ((highEnd n a b).toNat - (lowEnd n a b).toNat + 1),
      (lowEnd n a b + .ofNat i).toNat = (lowEnd n a b).toNat + i := by
    intro i hi
    have hi := List.mem_range.mp hi
    have hsize : UInt32.size = 2 ^ 32 := rfl
    rw [UInt32.toNat_add, UInt32.toNat_ofNat_of_lt' (by omega), Nat.mod_eq_of_lt (by omega)]
  rw [range, List.map_map, List.range'_eq_map_range]
  exact List.map_congr_left hplace

theorem toNat_injective : Function.Injective UInt32.toNat :=
  fun _ _ => UInt32.toNat_inj.mp

theorem length_range : (range n a b).length = (highEnd n a b).toNat - (lowEnd n a b).toNat + 1 := by
  have h := congrArg List.length (@map_toNat_range n a b)
  rwa [List.length_map, List.length_range'] at h

theorem nodup_range : (range n a b).Nodup :=
  List.Nodup.of_map UInt32.toNat (map_toNat_range ▸ List.nodup_range')

theorem mem_range_iff : c ∈ range n a b ↔ Between (min a (n - 1)) (min b (n - 1)) c := by
  have hle := @lowEnd_le_highEnd n a b
  rw [← List.mem_map_of_injective toNat_injective, map_toNat_range, List.mem_range'_1, Between,
    UInt32.le_iff_toNat_le, UInt32.le_iff_toNat_le, UInt32.toNat_max, UInt32.toNat_min,
    UInt32.toNat_min, UInt32.toNat_min]
  rw [toNat_lowEnd, toNat_highEnd] at *
  omega

theorem range_comm : range n b a = range n a b := by
  refine toNat_injective.list_map ?_
  rw [map_toNat_range, map_toNat_range, toNat_lowEnd, toNat_highEnd, toNat_lowEnd, toNat_highEnd,
    Nat.min_comm b.toNat, Nat.max_comm b.toNat]

theorem range_self : range n a a = [min a (n - 1)] := by
  refine toNat_injective.list_map ?_
  rw [map_toNat_range, toNat_lowEnd, toNat_highEnd, Nat.min_self, Nat.max_self, Nat.sub_self,
    List.map_singleton, UInt32.toNat_min]
  rfl

theorem toNat_pos (hn : n ≠ 0) : 0 < n.toNat :=
  Nat.pos_of_ne_zero fun hz => hn (UInt32.toNat_inj.mp hz)

theorem toNat_last (hn : n ≠ 0) : (n - 1).toNat = n.toNat - 1 :=
  UInt32.toNat_sub_of_le _ _ (UInt32.le_iff_toNat_le.mpr (toNat_pos hn))

theorem length_range_lt (hn : n ≠ 0) : (range n a b).length < UInt32.size := by
  have hhigh := @toNat_highEnd n a b
  have hlast := toNat_last hn
  have hpos := toNat_pos hn
  have hlt : n.toNat < UInt32.size := n.toNat_lt
  rw [length_range]
  omega

theorem lt_of_mem_range (hn : n ≠ 0) (h : c ∈ range n a b) : c < n := by
  have hpos := toNat_pos hn
  have hlast := toNat_last hn
  have hmem := List.mem_map_of_mem (f := UInt32.toNat) h
  rw [map_toNat_range, List.mem_range'_1] at hmem
  have hle := @lowEnd_le_highEnd n a b
  have hhigh := @toNat_highEnd n a b
  exact UInt32.lt_iff_toNat_lt.mpr (by omega)

theorem last_lt (hn : n ≠ 0) : n - 1 < n := by
  have hpos := toNat_pos hn
  have hlast := toNat_last hn
  exact UInt32.lt_iff_toNat_lt.mpr (by omega)

theorem min_last (h : c < n) : min c (n - 1) = c := by
  have hlt := UInt32.lt_iff_toNat_lt.mp h
  have hn : n ≠ 0 := fun hz => UInt32.not_lt_zero (hz ▸ h)
  have hlast := toNat_last hn
  refine UInt32.toNat_inj.mp ?_
  rw [UInt32.toNat_min]
  omega

-- All of a line of `n` pixels.
theorem range_zero_last (hn : n ≠ 0) :
    range n 0 (n - 1) = (List.range n.toNat).map UInt32.ofNat := by
  have hpos := toNat_pos hn
  have hlast := toNat_last hn
  have hzero : (0 : UInt32).toNat = 0 := rfl
  have hlow : (lowEnd n 0 (n - 1)).toNat = 0 := by rw [toNat_lowEnd]; omega
  have hhigh : (highEnd n 0 (n - 1)).toNat = n.toNat - 1 := by rw [toNat_highEnd]; omega
  refine toNat_injective.list_map ?_
  rw [map_toNat_range, hlow, hhigh, Nat.sub_zero, Nat.sub_add_cancel hpos, ← List.range_eq_range',
    List.map_map]
  refine (List.map_id _).symm.trans (List.map_congr_left fun i hi => ?_)
  exact (UInt32.toNat_ofNat_of_lt' (Nat.lt_trans (List.mem_range.mp hi) n.toNat_lt)).symm

end Range

section Points

variable {page : Page} {x y x₁ y₁ x₂ y₂ : UInt32} {points : List (UInt32 × UInt32)}

-- Between the two ends, each of them moved onto the page.
structure OnSegment (page : Page) (x₁ y₁ x₂ y₂ x y : UInt32) : Prop where
  column : Between (min x₁ (page.width - 1)) (min x₂ (page.width - 1)) x
  row    : Between (min y₁ (page.height - 1)) (min y₂ (page.height - 1)) y

theorem onSegment_iff : page.OnSegment x₁ y₁ x₂ y₂ x y ↔
    x ∈ range page.width x₁ x₂ ∧ y ∈ range page.height y₁ y₂ := by
  rw [mem_range_iff, mem_range_iff]
  exact ⟨fun ⟨hc, hr⟩ => ⟨hc, hr⟩, fun ⟨hc, hr⟩ => ⟨hc, hr⟩⟩

-- The page has pixels, and the line is along one of its rows or columns.
structure Sampled (page : Page) (x₁ y₁ x₂ y₂ : UInt32) : Prop where
  width    : page.width ≠ 0
  height   : page.height ≠ 0
  straight : x₁ = x₂ ∨ y₁ = y₂

theorem sampled_iff : page.Sampled x₁ y₁ x₂ y₂ ↔
    ¬(page.width = 0 ∨ page.height = 0 ∨ x₁ ≠ x₂ ∧ y₁ ≠ y₂) := by
  constructor
  case mp =>
    rintro ⟨hw, hh, hs⟩
    simp only [hw, hh, false_or, not_and_or, not_not]
    exact hs
  case mpr =>
    intro h
    simp only [not_or, not_and_or, not_not] at h
    exact ⟨h.left, h.right.left, h.right.right⟩

theorem line?_eq_none (h : ¬page.Sampled x₁ y₁ x₂ y₂) : page.line? x₁ y₁ x₂ y₂ = none :=
  if_pos (not_not.mp (mt sampled_iff.mpr h))

section Sampled

variable (h : page.Sampled x₁ y₁ x₂ y₂)
include h

theorem line?_of_horizontal (hy : y₁ = y₂) : page.line? x₁ y₁ x₂ y₂ =
    some ((range page.width x₁ x₂).map fun x => (x, min y₁ (page.height - 1))) := by
  subst hy
  rw [line?, if_neg (sampled_iff.mp h), range_self]
  exact congrArg some (List.flatMap_singleton ..)

theorem line?_of_vertical (hx : x₁ = x₂) : page.line? x₁ y₁ x₂ y₂ =
    some ((range page.height y₁ y₂).map fun y => (min x₁ (page.width - 1), y)) := by
  subst hx
  rw [line?, if_neg (sampled_iff.mp h), range_self]
  exact congrArg some List.map_eq_flatMap.symm

theorem exists_line?_eq_some : ∃ points, page.line? x₁ y₁ x₂ y₂ = some points := by
  obtain hx | hy := h.straight
  case inl => exact ⟨_, line?_of_vertical h hx⟩
  case inr => exact ⟨_, line?_of_horizontal h hy⟩

end Sampled

section Line

variable (hp : page.line? x₁ y₁ x₂ y₂ = some points)
include hp

theorem sampled_of_line? : page.Sampled x₁ y₁ x₂ y₂ := by
  by_contra h
  cases (line?_eq_none h).symm.trans hp

-- A line runs along a column or along a row.
theorem line?_cases :
    (x₁ = x₂ ∧ points = (range page.height y₁ y₂).map fun y => (min x₁ (page.width - 1), y)) ∨
      y₁ = y₂ ∧ points = (range page.width x₁ x₂).map fun x => (x, min y₁ (page.height - 1)) := by
  have h := sampled_of_line? hp
  obtain hx | hy := h.straight
  case inl => exact .inl ⟨hx, (Option.some.inj ((line?_of_vertical h hx).symm.trans hp)).symm⟩
  case inr => exact .inr ⟨hy, (Option.some.inj ((line?_of_horizontal h hy).symm.trans hp)).symm⟩

theorem nodup_line? : points.Nodup := by
  obtain ⟨-, rfl⟩ | ⟨-, rfl⟩ := line?_cases hp
  case inl => exact nodup_range.map fun _ _ he => (Prod.mk.inj he).right
  case inr => exact nodup_range.map fun _ _ he => (Prod.mk.inj he).left

theorem length_line? : 0 < points.length ∧ points.length < UInt32.size := by
  have h := sampled_of_line? hp
  obtain ⟨-, rfl⟩ | ⟨-, rfl⟩ := line?_cases hp
  all_goals rw [List.length_map]
  case inl => exact ⟨length_range ▸ Nat.succ_pos _, length_range_lt h.height⟩
  case inr => exact ⟨length_range ▸ Nat.succ_pos _, length_range_lt h.width⟩

theorem mem_line?_iff : (x, y) ∈ points ↔ page.OnSegment x₁ y₁ x₂ y₂ x y := by
  rw [onSegment_iff]
  obtain ⟨rfl, rfl⟩ | ⟨rfl, rfl⟩ := line?_cases hp
  all_goals rw [range_self, List.mem_singleton, List.mem_map]
  case inl =>
    constructor
    case mp =>
      rintro ⟨y, hy, he⟩
      cases he
      exact ⟨rfl, hy⟩
    case mpr =>
      rintro ⟨rfl, hy⟩
      exact ⟨y, hy, rfl⟩
  case inr =>
    constructor
    case mp =>
      rintro ⟨x, hx, he⟩
      cases he
      exact ⟨hx, rfl⟩
    case mpr =>
      rintro ⟨hx, rfl⟩
      exact ⟨x, hx, rfl⟩

theorem contains_of_mem_line? (hm : (x, y) ∈ points) : page.Contains x y := by
  have h := sampled_of_line? hp
  have hs := (mem_line?_iff hp).mp hm
  exact ⟨lt_of_mem_range h.width (mem_range_iff.mpr hs.column),
    lt_of_mem_range h.height (mem_range_iff.mpr hs.row)⟩

end Line

-- The ends of a line may be swapped.
theorem line?_comm : page.line? x₂ y₂ x₁ y₁ = page.line? x₁ y₁ x₂ y₂ := by
  rw [line?, line?, @range_comm page.width, @range_comm page.height]
  simp only [ne_comm (a := x₂), ne_comm (a := y₂)]

theorem sampled_transpose : Sampled page.transpose y₁ x₁ y₂ x₂ ↔ page.Sampled x₁ y₁ x₂ y₂ :=
  ⟨fun h => ⟨h.height, h.width, h.straight.symm⟩, fun h => ⟨h.height, h.width, h.straight.symm⟩⟩

-- A row of a page is a column of the transposed one.
theorem line?_transpose : line? page.transpose y₁ x₁ y₂ x₂ =
    (page.line? x₁ y₁ x₂ y₂).map (List.map Prod.swap) := by
  by_cases h : page.Sampled x₁ y₁ x₂ y₂
  case neg =>
    rw [line?_eq_none h, line?_eq_none (mt sampled_transpose.mp h), Option.map_none]
  case pos =>
    have ht := sampled_transpose.mpr h
    obtain hx | hy := h.straight
    case inl =>
      rw [line?_of_vertical h hx, line?_of_horizontal ht hx, Option.map_some, List.map_map]
      rfl
    case inr =>
      rw [line?_of_horizontal h hy, line?_of_vertical ht hy, Option.map_some, List.map_map]
      rfl

end Points

section Fraction

variable {page : Page} {x₁ y₁ x₂ y₂ : UInt32} {points : List (UInt32 × UInt32)}

-- The part of the points that is ink.
def inkFraction (page : Page) (points : List (UInt32 × UInt32)) : Float32 :=
  (UInt64.ofNat (points.countP fun p => page.getD p.1 p.2 false)).toFloat32 /
    (UInt64.ofNat points.length).toFloat32

theorem inkFractionOnLine?_eq :
    page.inkFractionOnLine? x₁ y₁ x₂ y₂ = (page.line? x₁ y₁ x₂ y₂).map page.inkFraction :=
  rfl

theorem inkFractionOnLine?_eq_some (hp : page.line? x₁ y₁ x₂ y₂ = some points) :
    page.inkFractionOnLine? x₁ y₁ x₂ y₂ = some (page.inkFraction points) := by
  rw [inkFractionOnLine?_eq, hp, Option.map_some]

theorem inkFraction_swap : inkFraction page.transpose (points.map Prod.swap) =
    page.inkFraction points := by
  have hink (p : UInt32 × UInt32) : page.transpose.getD p.swap.1 p.swap.2 false =
      page.getD p.1 p.2 false := congrArg (·.getD false) Grid.get?_transpose
  rw [inkFraction, List.countP_map, List.length_map]
  simp only [Function.comp_def, hink]
  rfl

theorem inkFraction_between (hp : page.line? x₁ y₁ x₂ y₂ = some points) :
    0 ≤ page.inkFraction points ∧ page.inkFraction points ≤ 1 := by
  obtain ⟨hpos, hlt⟩ := length_line? hp
  exact quotient_between List.countP_le_length hpos (Nat.lt_trans hlt (by decide))

end Fraction

section Border

variable {page : Page}

-- The pixels of a row, and of a column.
def rowPoints (page : Page) (y : UInt32) : List (UInt32 × UInt32) :=
  (List.range page.width.toNat).map fun x => (.ofNat x, y)

def columnPoints (page : Page) (x : UInt32) : List (UInt32 × UInt32) :=
  (List.range page.height.toNat).map fun y => (x, .ofNat y)

-- The ink fractions of the first row, the last row, the first column and the last column.
def borderFractions (page : Page) : List Float32 :=
  [page.rowPoints 0, page.rowPoints (page.height - 1), page.columnPoints 0,
    page.columnPoints (page.width - 1)].map page.inkFraction

variable {a : UInt32} (hw : page.width ≠ 0) (hh : page.height ≠ 0)
include hw hh

theorem line?_row (ha : a < page.height) :
    page.line? 0 a (page.width - 1) a = some (page.rowPoints a) := by
  rw [line?_of_horizontal ⟨hw, hh, .inr rfl⟩ rfl, range_zero_last hw, min_last ha, List.map_map]
  rfl

theorem line?_column (ha : a < page.width) :
    page.line? a 0 a (page.height - 1) = some (page.columnPoints a) := by
  rw [line?_of_vertical ⟨hw, hh, .inl rfl⟩ rfl, range_zero_last hh, min_last ha, List.map_map]
  rfl

theorem borderDarkness?_eq_some : ∃ top bottom left right,
    page.borderFractions = [top, bottom, left, right] ∧
      page.borderDarkness? = some ((top + bottom + left + right) / 4) ∧
      ∀ f ∈ page.borderFractions, 0 ≤ f ∧ f ≤ 1 := by
  have htop := line?_row hw hh (UInt32.pos_iff_ne_zero.mpr hh)
  have hbottom := line?_row hw hh (last_lt hh)
  have hleft := line?_column hw hh (UInt32.pos_iff_ne_zero.mpr hw)
  have hright := line?_column hw hh (last_lt hw)
  have hguard : (guard (page.width ≠ 0 ∧ page.height ≠ 0) : Option Unit) = some () :=
    if_pos ⟨hw, hh⟩
  refine ⟨_, _, _, _, rfl, ?_, ?_⟩
  case refine_1 =>
    rw [borderDarkness?, hguard]
    simp only [inkFractionOnLine?_eq_some htop, inkFractionOnLine?_eq_some hbottom,
      inkFractionOnLine?_eq_some hleft, inkFractionOnLine?_eq_some hright, Option.bind_eq_bind,
      Option.bind_some]
    rfl
  case refine_2 =>
    intro f hf
    obtain ⟨points, hpoints, rfl⟩ := List.mem_map.mp hf
    simp only [List.mem_cons, List.not_mem_nil, or_false] at hpoints
    obtain rfl | rfl | rfl | rfl := hpoints
    case inl         => exact inkFraction_between htop
    case inr.inl     => exact inkFraction_between hbottom
    case inr.inr.inl => exact inkFraction_between hleft
    case inr.inr.inr => exact inkFraction_between hright

end Border

-- The sampling once more, with rows and columns apart. There is no result where a difference or a
-- sum leaves its word, or where a place is read that is not stored.
section Checked

variable {page : Page} {n a b x y x₁ y₁ x₂ y₂ : UInt32} {points : List (UInt32 × UInt32)}

def inkAt? (page : Page) (x y : UInt32) : Option Bool := do
  let place ← Exact.word64? (page.offset x y)
  page.cells[place.toNat]?

def countInk? (page : Page) : List (UInt32 × UInt32) → Option Nat
  | []             => some 0
  | (x, y) :: rest => do
    let ink ← page.inkAt? x y
    let hits ← page.countInk? rest
    return if ink then hits + 1 else hits

-- All from the lower to the upper end, both included.
def upTo (lo hi : UInt32) : List UInt32 :=
  (List.range' lo.toNat (hi.toNat + 1 - lo.toNat)).map UInt32.ofNat

def sampleRow? (page : Page) (x₁ x₂ y : UInt32) : Option (Nat × UInt32) := do
  let right ← Exact.sub? page.width 1
  let bottom ← Exact.sub? page.height 1
  let lo := min (min x₁ x₂) right
  let hi := min (max x₁ x₂) right
  let hits ← page.countInk? ((upTo lo hi).map fun x => (x, min y bottom))
  let count ← Exact.add? (← Exact.sub? hi lo) 1
  return (hits, count)

def sampleColumn? (page : Page) (x y₁ y₂ : UInt32) : Option (Nat × UInt32) := do
  let right ← Exact.sub? page.width 1
  let bottom ← Exact.sub? page.height 1
  let lo := min (min y₁ y₂) bottom
  let hi := min (max y₁ y₂) bottom
  let hits ← page.countInk? ((upTo lo hi).map fun y => (min x right, y))
  let count ← Exact.add? (← Exact.sub? hi lo) 1
  return (hits, count)

def sampleLine? (page : Page) (x₁ y₁ x₂ y₂ : UInt32) : Option (Option Float32) :=
  if page.width = 0 ∨ page.height = 0 ∨ (x₁ ≠ x₂ ∧ y₁ ≠ y₂) then
    some none
  else
    (if y₁ = y₂ then page.sampleRow? x₁ x₂ y₁ else page.sampleColumn? x₁ y₁ y₂).map
      fun (hits, count) => some ((UInt64.ofNat hits).toFloat32 / count.toFloat32)

theorem inkAt?_eq_some (h : page.Contains x y) : page.inkAt? x y = some (page.getD x y false) := by
  have hlt : page.offset x y < UInt64.size := by
    refine Nat.lt_of_lt_of_le (Grid.offset_lt h) ?_
    rw [page.size_cells]
    exact Nat.mul_le_mul (Nat.le_of_lt page.width.toNat_lt) (Nat.le_of_lt page.height.toNat_lt)
  rw [inkAt?, Exact.word64?, if_pos hlt, Option.bind_eq_bind, Option.bind_some,
    UInt64.toNat_ofNat_of_lt' hlt, ← Grid.get?_eq_getElem? h, Grid.getD, Grid.get?_eq_some_get h,
    Option.getD_some]

theorem countInk?_eq_some (h : ∀ p ∈ points, page.Contains p.1 p.2) :
    page.countInk? points = some (points.countP fun p => page.getD p.1 p.2 false) := by
  induction points
  case nil => rfl
  case cons p rest ih =>
    obtain ⟨hp, hrest⟩ := List.forall_mem_cons.mp h
    rw [countInk?, inkAt?_eq_some hp, ih hrest, List.countP_cons]
    cases page.getD p.1 p.2 false <;> rfl

theorem upTo_ends : upTo (lowEnd n a b) (highEnd n a b) = range n a b := by
  have hle := @lowEnd_le_highEnd n a b
  have hlength : (highEnd n a b).toNat + 1 - (lowEnd n a b).toNat =
      (highEnd n a b).toNat - (lowEnd n a b).toNat + 1 := by omega
  rw [upTo, hlength, ← map_toNat_range, List.map_map]
  refine (List.map_congr_left fun c _ => ?_).trans (List.map_id _)
  exact UInt32.ofNat_toNat

theorem sub?_one (hn : n ≠ 0) : Exact.sub? n 1 = some (n - 1) :=
  Exact.sub?_eq_some (toNat_pos hn)

theorem count?_ends (hn : n ≠ 0) :
    (Exact.sub? (highEnd n a b) (lowEnd n a b)).bind (Exact.add? · 1) =
      some (.ofNat (range n a b).length) := by
  have hle := @lowEnd_le_highEnd n a b
  have hhigh := @toNat_highEnd n a b
  have hlast := toNat_last hn
  have hpos := toNat_pos hn
  have hlt := n.toNat_lt
  have hsize : UInt32.size = 2 ^ 32 := rfl
  have hone : (1 : UInt32).toNat = 1 := rfl
  have hdistance := UInt32.toNat_sub_of_le _ _ (UInt32.le_iff_toNat_le.mpr hle)
  rw [Exact.sub?_eq_some hle, Option.bind_some, Exact.add?, Exact.word?, hdistance, length_range]
  exact if_pos (by omega)

theorem toFloat32_ofNat {n : Nat} (h : n < UInt32.size) :
    (UInt32.ofNat n).toFloat32 = (UInt64.ofNat n).toFloat32 := by
  have h32 : (UInt32.ofNat n).toNat = n := UInt32.toNat_ofNat_of_lt' h
  have h64 : (UInt64.ofNat n).toNat = n := UInt64.toNat_ofNat_of_lt' (Nat.lt_trans h (by decide))
  have hmodel : UnpackedFloat.ofUInt32 .binary32 (.ofNat n) =
      UnpackedFloat.ofUInt64 .binary32 (.ofNat n) :=
    congrArg (UnpackedFloat.ofNat .binary32) (h32.trans h64.symm)
  exact congrArg (fun f => (⟨Float32.Model.pack f⟩ : Float32)) hmodel

-- What both branches do with the places on their line.
theorem countLine?_eq_some {place : UInt32 → UInt32 × UInt32} (hn : n ≠ 0)
    (hp : page.line? x₁ y₁ x₂ y₂ = some ((range n a b).map place)) :
    ((page.countInk? ((upTo (lowEnd n a b) (highEnd n a b)).map place)).bind fun hits =>
        (Exact.sub? (highEnd n a b) (lowEnd n a b)).bind fun distance =>
          (Exact.add? distance 1).bind fun count => some (hits, count)) =
      some (((range n a b).map place).countP fun p => page.getD p.1 p.2 false,
        .ofNat ((range n a b).map place).length) := by
  have hhits := countInk?_eq_some fun p hm => contains_of_mem_line? hp hm
  rw [upTo_ends, hhits, Option.bind_some, ← Option.bind_assoc, count?_ends hn, Option.bind_some,
    List.length_map]

section Sampled

variable (h : page.Sampled x₁ y₁ x₂ y₂)
include h

theorem sampleRow?_eq_some (hy : y₁ = y₂) (hp : page.line? x₁ y₁ x₂ y₂ = some points) :
    page.sampleRow? x₁ x₂ y₁ =
      some (points.countP fun p => page.getD p.1 p.2 false, .ofNat points.length) := by
  cases (line?_of_horizontal h hy).symm.trans hp
  rw [sampleRow?, sub?_one h.width, sub?_one h.height]
  exact countLine?_eq_some h.width hp

theorem sampleColumn?_eq_some (hx : x₁ = x₂) (hp : page.line? x₁ y₁ x₂ y₂ = some points) :
    page.sampleColumn? x₁ y₁ y₂ =
      some (points.countP fun p => page.getD p.1 p.2 false, .ofNat points.length) := by
  cases (line?_of_vertical h hx).symm.trans hp
  rw [sampleColumn?, sub?_one h.width, sub?_one h.height]
  exact countLine?_eq_some h.height hp

end Sampled

-- Nothing overflows and nothing is read that is not there, and the two branches are one.
theorem sampleLine?_eq :
    page.sampleLine? x₁ y₁ x₂ y₂ = some (page.inkFractionOnLine? x₁ y₁ x₂ y₂) := by
  by_cases h : page.Sampled x₁ y₁ x₂ y₂
  case neg =>
    rw [sampleLine?, if_pos (not_not.mp (mt sampled_iff.mpr h)), inkFractionOnLine?_eq,
      line?_eq_none h, Option.map_none]
  case pos =>
    obtain ⟨points, hp⟩ := exists_line?_eq_some h
    have hsample : (if y₁ = y₂ then page.sampleRow? x₁ x₂ y₁ else page.sampleColumn? x₁ y₁ y₂) =
        some (points.countP fun p => page.getD p.1 p.2 false, .ofNat points.length) := by
      split
      case isTrue hy  => exact sampleRow?_eq_some h hy hp
      case isFalse hy => exact sampleColumn?_eq_some h (h.straight.resolve_right hy) hp
    rw [sampleLine?, if_neg (sampled_iff.mp h), hsample, inkFractionOnLine?_eq_some hp, inkFraction,
      ← toFloat32_ofNat (length_line? hp).right]
    rfl

end Checked

variable {page : Page} {x₁ y₁ x₂ y₂ : UInt32}

theorem inkFractionOnLine?_comm :
    page.inkFractionOnLine? x₂ y₂ x₁ y₁ = page.inkFractionOnLine? x₁ y₁ x₂ y₂ := by
  rw [inkFractionOnLine?_eq, line?_comm, inkFractionOnLine?_eq]

theorem inkFractionOnLine?_transpose :
    inkFractionOnLine? page.transpose y₁ x₁ y₂ x₂ = page.inkFractionOnLine? x₁ y₁ x₂ y₂ := by
  rw [inkFractionOnLine?_eq, line?_transpose, Option.map_map, inkFractionOnLine?_eq]
  exact congrArg (Option.map · _) (funext fun _ => inkFraction_swap)

theorem inkFractionOnLine?_eq_none_iff : page.inkFractionOnLine? x₁ y₁ x₂ y₂ = none ↔
    page.width = 0 ∨ page.height = 0 ∨ x₁ ≠ x₂ ∧ y₁ ≠ y₂ := by
  rw [inkFractionOnLine?_eq, Option.map_eq_none_iff]
  constructor
  case mp =>
    intro hn
    by_contra h
    obtain ⟨points, hp⟩ := exists_line?_eq_some (sampled_iff.mpr h)
    cases hn.symm.trans hp
  case mpr => exact fun h => line?_eq_none fun hs => sampled_iff.mp hs h

theorem borderDarkness?_eq_none (h : page.width = 0 ∨ page.height = 0) :
    page.borderDarkness? = none := by
  have hguard : (guard (page.width ≠ 0 ∧ page.height ≠ 0) : Option Unit) = none :=
    if_neg fun hne => h.elim hne.left hne.right
  rw [borderDarkness?, hguard]
  rfl

-- A white border has no darkness, and a black one has all of it.
theorem borderDarkness?_between :
    ∀ darkness ∈ page.borderDarkness?, 0 ≤ darkness ∧ darkness ≤ 1 := by
  intro darkness hd
  by_cases hz : page.width = 0 ∨ page.height = 0
  case pos => cases (borderDarkness?_eq_none hz).symm.trans hd
  case neg =>
    obtain ⟨hw, hh⟩ := not_or.mp hz
    obtain ⟨top, bottom, left, right, hfractions, hmean, hbetween⟩ := borderDarkness?_eq_some hw hh
    cases hmean.symm.trans hd
    rw [hfractions] at hbetween
    exact meanOfFour_between (hbetween top (by simp)) (hbetween bottom (by simp))
      (hbetween left (by simp)) (hbetween right (by simp))

-- A straight line of a page with pixels has a part that is ink: of the pixels between its ends, so
-- many. It does not matter which end is first, nor whether the page is transposed. So a page with
-- pixels has a border.
theorem inkFractionOnLine?_sampling (page : Page) (x₁ y₁ x₂ y₂ : UInt32) :
    (page.inkFractionOnLine? x₁ y₁ x₂ y₂ = none ↔
      page.width = 0 ∨ page.height = 0 ∨ x₁ ≠ x₂ ∧ y₁ ≠ y₂) ∧
    page.sampleLine? x₁ y₁ x₂ y₂ = some (page.inkFractionOnLine? x₁ y₁ x₂ y₂) ∧
    (∀ f ∈ page.inkFractionOnLine? x₁ y₁ x₂ y₂, ∃ points : List (UInt32 × UInt32),
      points.Nodup ∧ (∀ x y, (x, y) ∈ points ↔ page.OnSegment x₁ y₁ x₂ y₂ x y) ∧
      (∀ p ∈ points, page.Contains p.1 p.2) ∧ f = page.inkFraction points) ∧
    page.inkFractionOnLine? x₂ y₂ x₁ y₁ = page.inkFractionOnLine? x₁ y₁ x₂ y₂ ∧
    inkFractionOnLine? page.transpose y₁ x₁ y₂ x₂ = page.inkFractionOnLine? x₁ y₁ x₂ y₂ ∧
    if page.width = 0 ∨ page.height = 0 then page.borderDarkness? = none
    else ∃ top bottom left right, page.borderFractions = [top, bottom, left, right] ∧
      page.borderDarkness? = some ((top + bottom + left + right) / 4) ∧
      ∀ f ∈ page.borderFractions, 0 ≤ f ∧ f ≤ 1 := by
  refine ⟨inkFractionOnLine?_eq_none_iff, sampleLine?_eq, fun f hf => ?_, inkFractionOnLine?_comm,
    inkFractionOnLine?_transpose, ?_⟩
  case refine_1 =>
    have h : page.Sampled x₁ y₁ x₂ y₂ := sampled_iff.mpr fun hn => by
      cases (inkFractionOnLine?_eq_none_iff.mpr hn).symm.trans hf
    obtain ⟨points, hp⟩ := exists_line?_eq_some h
    cases (inkFractionOnLine?_eq_some hp).symm.trans hf
    exact ⟨points, nodup_line? hp, fun x y => mem_line?_iff hp,
      fun p hm => contains_of_mem_line? hp hm, rfl⟩
  case refine_2 =>
    split
    case isTrue hz  => exact borderDarkness?_eq_none hz
    case isFalse hz =>
      obtain ⟨hw, hh⟩ := not_or.mp hz
      exact borderDarkness?_eq_some hw hh

end PagePrep.Page
