import PagePrep.Options.Config

-- Options are checked one after the other. They can be used if all checks hold, and otherwise the
-- first that does not hold says what is wrong.

namespace PagePrep

-- The first of some checks that does not hold, if there is any.
inductive FirstFailure {ι : Type} : (checks : List (Prop × ι)) → Option ι → Prop where
  | nothing : FirstFailure [] none
  | head {p : Prop} {i : ι} {checks : List (Prop × ι)} (hp : ¬p) :
    FirstFailure ((p, i) :: checks) (some i)
  | tail {p : Prop} {i : ι} {checks : List (Prop × ι)} {found : Option ι} (hp : p)
      (h : FirstFailure checks found) : FirstFailure ((p, i) :: checks) found

namespace FirstFailure

variable {ι : Type} {checks : List (Prop × ι)} {found found' : Option ι} {i : ι}

theorem unique (h : FirstFailure checks found) (h' : FirstFailure checks found') :
    found = found' := by
  induction h
  case nothing =>
    cases h'
    rfl
  case head hp =>
    cases h'
    case head       => rfl
    case tail hp' _ => exact absurd hp' hp
  case tail hp _ ih =>
    cases h'
    case head hp'  => exact absurd hp hp'
    case tail _ h' => exact ih h'

theorem none_iff : FirstFailure checks none ↔ ∀ check ∈ checks, check.1 := by
  induction checks
  case nil => exact ⟨fun _ => nofun, fun _ => .nothing⟩
  case cons check checks ih =>
    rw [List.forall_mem_cons, ← ih]
    refine ⟨fun h => ?_, fun h => .tail h.left h.right⟩
    cases h
    case tail hp h => exact ⟨hp, h⟩

-- Looking at a check before the others.
theorem ite {p : Prop} {c : Prop} [Decidable c] (hc : c ↔ ¬p) (h : FirstFailure checks found) :
    FirstFailure ((p, i) :: checks) (if c then some i else found) := by
  split
  case isTrue h'  => exact .head (hc.mp h')
  case isFalse h' => exact .tail (Classical.not_not.mp (mt hc.mpr h')) h

end FirstFailure

namespace PageOptions

-- What must hold of options, with what is wrong otherwise.
def checks (o : PageOptions) : List (Prop × InvalidOption) :=
  [(0 ≤ o.polarity.darkBgThreshold ∧ o.polarity.darkBgThreshold ≤ 1,
      .darkBgThreshold o.polarity.darkBgThreshold),
    (o.scale.enabled → o.scale.factor.isFinite ∧ 0 < o.scale.factor,
      .scaleFactor o.scale.factor),
    (0 ≤ o.binarize.scoreFraction ∧ o.binarize.scoreFraction ≤ 1,
      .scoreFraction o.binarize.scoreFraction),
    (o.furigana.mode ≠ .disabled → o.magnification.isFinite ∧ 0 < o.magnification,
      .furiganaMagnification o.magnification),
    (o.threads ≠ some 0, .threads)]

theorem not_isShare {x : Float32} : !isShare x ↔ ¬(0 ≤ x ∧ x ≤ 1) := by
  have h : isShare x ↔ 0 ≤ x ∧ x ≤ 1 := by simp [isShare]
  rw [← h, Bool.not_eq_true', Bool.not_eq_true]

theorem and_not_isPositive {p : Prop} {x : Float32} :
    p ∧ !isPositive x ↔ ¬(p → x.isFinite ∧ 0 < x) := by
  have h : isPositive x ↔ x.isFinite ∧ 0 < x := by simp [isPositive]
  rw [← h, Classical.not_imp, Bool.not_eq_true', Bool.not_eq_true]

theorem firstFailure_invalid? (o : PageOptions) : FirstFailure o.checks o.invalid? :=
  .ite not_isShare <| .ite and_not_isPositive <| .ite not_isShare <| .ite and_not_isPositive <|
    .ite Classical.not_not.symm .nothing

end PageOptions

end PagePrep
