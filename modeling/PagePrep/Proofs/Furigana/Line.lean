import PagePrep.Furigana.Axis
import PagePrep.Proofs.Grid
import PagePrep.Raster.Page

-- A page as the lines of an axis: the ink on a line, and the page with some of its lines erased.
-- Everything the removal does to a page is said in these terms, so that the axis does not matter.

namespace PagePrep

namespace ScanAxis

variable {axis : ScanAxis} {a b : UInt32}

-- The pixel in column `a` of row `b` has the same line and position as the point at position `b`
-- of line `a`, read the other way round.
@[simp]
theorem point_point : axis.point (axis.point a b).1 (axis.point a b).2 = (a, b) := by
  cases axis <;> rfl

end ScanAxis

namespace Page

variable {page page₁ page₂ : Page} {axis : ScanAxis} {line pos x y : UInt32} {erased : Nat → Bool}

abbrev lineCount (page : Page) (axis : ScanAxis) : UInt32 :=
  axis.lineCount page.width page.height

abbrev lineLength (page : Page) (axis : ScanAxis) : UInt32 :=
  axis.lineLength page.width page.height

-- The pixel at a position of a line.
def onLine? (page : Page) (axis : ScanAxis) (line pos : UInt32) : Option Bool :=
  page.get? (axis.point line pos).1 (axis.point line pos).2

theorem get?_eq_onLine? (axis : ScanAxis) :
    page.get? x y = page.onLine? axis (axis.point x y).1 (axis.point x y).2 := by
  simp [onLine?]

theorem contains_point_iff :
    page.Contains (axis.point line pos).1 (axis.point line pos).2 ↔
      line < page.lineCount axis ∧ pos < page.lineLength axis := by
  cases axis
  case columns => rfl
  case rows    => exact and_comm

theorem isSome_onLine?_iff :
    (page.onLine? axis line pos).isSome ↔ line < page.lineCount axis ∧ pos < page.lineLength axis :=
  Grid.isSome_get?_iff.trans contains_point_iff

theorem ext_onLine? (axis : ScanAxis) (hw : page₁.width = page₂.width)
    (hh : page₁.height = page₂.height)
    (h : ∀ line pos, page₁.onLine? axis line pos = page₂.onLine? axis line pos) : page₁ = page₂ :=
  Grid.ext_get? hw hh fun _ _ => by simp only [get?_eq_onLine? axis, h]

theorem onLine?_transpose : onLine? page.transpose .rows = page.onLine? .columns := by
  funext line pos
  simp [onLine?, ScanAxis.point]

def inkOnLine (page : Page) (axis : ScanAxis) (line : Nat) : Nat :=
  (List.range (page.lineLength axis).toNat).countP fun pos =>
    page.onLine? axis (.ofNat line) (.ofNat pos) = some true

theorem inkOnLine_transpose : inkOnLine page.transpose .rows = page.inkOnLine .columns := by
  funext line
  simp [inkOnLine, onLine?_transpose, lineLength, ScanAxis.lineLength]

-- A line without any ink is bad however little ink is asked for.
def goodLine (page : Page) (axis : ScanAxis) (minInk : UInt32) (line : Nat) : Bool :=
  max 1 minInk.toNat ≤ page.inkOnLine axis line

theorem goodLine_transpose {minInk : UInt32} :
    goodLine page.transpose .rows minInk = page.goodLine .columns minInk := by
  funext line
  rw [goodLine, goodLine, inkOnLine_transpose]

theorem exists_ink_of_goodLine {minInk : UInt32} (h : page.goodLine axis minInk line.toNat) :
    ∃ pos, page.onLine? axis line pos = some true := by
  simp only [goodLine, decide_eq_true_eq] at h
  have ⟨pos, _, hp⟩ := List.countP_pos_iff.mp <| Nat.lt_of_lt_of_le (Nat.lt_of_lt_of_le
    Nat.zero_lt_one (Nat.le_max_left ..)) h
  exact ⟨.ofNat pos, by simpa using hp⟩

section Blanked

-- The page with every line in `erased` made paper.
def blanked (page : Page) (axis : ScanAxis) (erased : Nat → Bool) : Page :=
  Grid.ofFn page.width page.height fun x y h => !erased (axis.point x y).1.toNat && page.get x y h

@[simp]
theorem width_blanked : (page.blanked axis erased).width = page.width :=
  rfl

@[simp]
theorem height_blanked : (page.blanked axis erased).height = page.height :=
  rfl

theorem lineLength_blanked : (page.blanked axis erased).lineLength axis = page.lineLength axis :=
  rfl

theorem get?_blanked :
    (page.blanked axis erased).get? x y =
      (page.get? x y).map (!erased (axis.point x y).1.toNat && ·) :=
  Grid.get?_ofFn_get

theorem onLine?_blanked :
    (page.blanked axis erased).onLine? axis line pos =
      (page.onLine? axis line pos).map (!erased line.toNat && ·) := by
  simp [onLine?, get?_blanked]

-- Only the lines that the page has matter.
theorem blanked_congr {erased' : Nat → Bool}
    (h : ∀ line < (page.lineCount axis).toNat, erased line = erased' line) :
    page.blanked axis erased = page.blanked axis erased' := by
  refine ext_onLine? axis rfl rfl fun line pos => ?_
  rw [onLine?_blanked, onLine?_blanked]
  cases hp : page.onLine? axis line pos
  case none => rfl
  case some =>
    have hl := isSome_onLine?_iff.mp (Option.isSome_of_eq_some hp) |>.left
    rw [h _ (UInt32.lt_iff_toNat_lt.mp hl)]

theorem blanked_none : (page.blanked axis fun _ => false) = page :=
  ext_onLine? axis rfl rfl fun line pos => by
    cases hp : page.onLine? axis line pos <;> simp [onLine?_blanked, hp]

theorem blanked_blanked {erased₁ erased₂ : Nat → Bool} :
    (page.blanked axis erased₁).blanked axis erased₂ =
      page.blanked axis fun line => erased₁ line || erased₂ line := by
  refine ext_onLine? axis rfl rfl fun line pos => ?_
  simp only [onLine?_blanked, Option.map_map]
  congr 1
  funext ink
  cases erased₁ line.toNat <;> simp

theorem transpose_blanked :
    (blanked page.transpose .rows erased).transpose = page.blanked .columns erased :=
  Grid.ext_get? rfl rfl fun _ _ => by simp [get?_blanked, ScanAxis.point]

theorem inkOnLine_blanked {line : Nat} (h : line < UInt32.size) :
    (page.blanked axis erased).inkOnLine axis line =
      if erased line then 0 else page.inkOnLine axis line := by
  simp only [inkOnLine, lineLength_blanked, onLine?_blanked, UInt32.toNat_ofNat_of_lt' h]
  cases erased line <;> simp

theorem goodLine_blanked {line : Nat} {minInk : UInt32} (h : line < UInt32.size) :
    (page.blanked axis erased).goodLine axis minInk line =
      (!erased line && page.goodLine axis minInk line) := by
  simp only [goodLine, inkOnLine_blanked h]
  cases erased line <;> simp

end Blanked

end Page

end PagePrep
