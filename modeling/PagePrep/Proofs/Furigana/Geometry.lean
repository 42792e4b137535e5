import Mathlib
import PagePrep.Proofs.Furigana.Exact

-- The bands of an erasure plan and the spans that it keeps share out the lines between them. Spans
-- of any origin will do, as long as they lie one behind the other.

namespace PagePrep

variable {lineCount cursor average : UInt32} {spans : List Span} {keepRatio : Float}

-- It is enough to know that each span lies behind the one in front of it.
theorem Span.Laid.of_isChain {lineCount cursor : Nat} (hc : cursor ≤ lineCount)
    (hs : ∀ s ∈ spans, s.start.toNat ≤ s.stop.toNat ∧ s.stop.toNat < lineCount)
    (ho : spans.IsChain Span.Before) (hf : ∀ s ∈ spans.head?, cursor ≤ s.start.toNat) :
    Span.Laid lineCount cursor spans := by
  induction spans generalizing cursor
  case nil => exact .nil hc
  case cons s rest ih =>
    obtain ⟨⟨hle, hlt⟩, hr⟩ := List.forall_mem_cons.mp hs
    refine .cons (hf s rfl) hle hlt <| ih hlt hr ho.tail fun t ht => ?_
    exact (List.isChain_cons.mp ho).left t ht

namespace ErasurePlan

theorem sum_gaps_cons {s : Span} :
    ((gaps lineCount cursor (s :: spans)).map (·.extent.toNat)).sum =
      s.start.toNat - cursor.toNat +
        ((gaps lineCount (s.stop + 1) spans).map (·.extent.toNat)).sum := by
  rw [gaps_cons, List.map_append, List.sum_append]
  split
  case isTrue hcs =>
    rw [List.map_singleton, List.sum_singleton, UInt32.toNat_sub_of_le _ _ (UInt32.le_of_lt hcs)]
  case isFalse hcs =>
    rw [UInt32.lt_iff_toNat_lt] at hcs
    rw [List.map_nil, List.sum_nil, Nat.sub_eq_zero_of_le (Nat.not_lt.mp hcs)]

-- Every line from `cursor` on is in a band or in a span, but for a final line that is left alone.
theorem sum_gaps_add_sum_widths (h : Span.Laid lineCount.toNat cursor.toNat spans)
    (hk : cursor ≠ 0 ∨ spans ≠ []) :
    ((gaps lineCount cursor spans).map (·.extent.toNat)).sum +
        (spans.map (·.width.toNat)).sum +
        (if behind cursor.toNat spans + 1 = lineCount.toNat then 1 else 0) =
      lineCount.toNat - cursor.toNat := by
  induction spans generalizing cursor
  case nil =>
    cases h with | nil h =>
    have hk : cursor ≠ 0 := by simpa using hk
    have hs := UInt32.toNat_sub_of_le _ _ (UInt32.le_iff_toNat_le.mpr h)
    rw [behind, gaps]
    by_cases hc : cursor.toNat + 1 < lineCount.toNat
    case pos => simp [hk, hc, hs, Nat.ne_of_lt hc]
    case neg =>
      simp only [hc, and_false, if_false, List.map_nil, List.sum_nil, Nat.add_zero]
      split <;> omega
  case cons s rest ih =>
    cases h with | cons hc hle hlt hr =>
    have hlt' := Nat.lt_of_le_of_lt hlt lineCount.toNat_lt
    have hstop := toNat_add_one (n := s.stop) hlt'
    have hz : s.stop + 1 ≠ 0 := fun hz => by simp [hz] at hstop
    have ih := ih (hstop ▸ hr) (.inl hz)
    rw [hstop] at ih
    rw [sum_gaps_cons, List.map_cons, List.sum_cons, Span.toNat_width hle hlt', behind]
    omega

end ErasurePlan

-- What a plan does with the lines of a page, if the spans that it keeps are `kept`.
structure ErasurePlan.Divides (lineCount : UInt32) (kept : List Span) (plan : ErasurePlan) :
    Prop where
  kept_eq  : plan.kept = kept.length
  fits     : ∀ b ∈ plan.bands, b.Fits lineCount
  apart    : plan.bands.Pairwise fun a b => a.Before b ∧ ∃ s ∈ kept,
    a.offset.toNat + a.extent.toNat ≤ s.start.toNat ∧ s.stop.toNat < b.offset.toNat
  disjoint : ∀ b ∈ plan.bands, ∀ s ∈ kept, ∀ line, b.Covers line → ¬s.Covers line
  nothing  : plan.kept = 0 → plan.bands = []
  sum_eq   : 1 ≤ plan.kept →
    (plan.bands.map (·.extent.toNat)).sum + (kept.map (·.width.toNat)).sum =
      if ∃ s ∈ kept.getLast?, s.stop.toNat + 2 = lineCount.toNat then lineCount.toNat - 1
      else lineCount.toNat

namespace ErasurePlan

theorem sum_gaps_add_sum_widths_of_ne_nil (h : Span.Laid lineCount.toNat 0 spans)
    (hs : spans ≠ []) :
    ((gaps lineCount 0 spans).map (·.extent.toNat)).sum + (spans.map (·.width.toNat)).sum =
      if ∃ s ∈ spans.getLast?, s.stop.toNat + 2 = lineCount.toNat then lineCount.toNat - 1
      else lineCount.toNat := by
  have hsum := @sum_gaps_add_sum_widths lineCount 0 spans h (.inr hs)
  have hlast : spans.getLast? = some (spans.getLast hs) := List.getLast?_eq_some_getLast hs
  have hb : behind 0 spans = (spans.getLast hs).stop.toNat + 1 := behind_eq hlast
  simp only [UInt32.toNat_zero, hb, Nat.sub_zero] at hsum
  simp only [hlast, Option.mem_some_iff, exists_eq_left']
  by_cases he : (spans.getLast hs).stop.toNat + 2 = lineCount.toNat
  case pos =>
    rw [if_pos he] at hsum ⊢
    omega
  case neg =>
    rw [if_neg he] at hsum ⊢
    exact hsum

theorem divides_gaps (h : Span.Laid lineCount.toNat 0 spans) :
    Divides lineCount spans ⟨gaps lineCount 0 spans, spans.length⟩ where
  kept_eq  := rfl
  fits b hb := (bounds_of_mem_gaps h hb).right
  apart    := (ordered_gaps h).and (separated_gaps h)
  disjoint b hb s hs line hc := by
    have hl := Nat.lt_of_lt_of_le hc.right (bounds_of_mem_gaps h hb).right.right
    have hk : spans ≠ [] := List.ne_nil_of_mem hs
    exact (exists_covers_gaps_iff h hl (.inr hk)).mp ⟨b, hb, hc⟩ |>.right.left s hs
  nothing hk := by simp [List.eq_nil_of_length_eq_zero hk, gaps]
  sum_eq hk := sum_gaps_add_sum_widths_of_ne_nil h (List.length_pos_iff.mp hk)

end ErasurePlan

-- The spans need not have been found on a page.
theorem planErasure_divides
    (hs : ∀ s ∈ spans, s.start ≤ s.stop ∧ s.stop < lineCount)
    (ho : spans.IsChain fun s t => s.stop < t.start) :
    (planErasure spans average lineCount keepRatio).Divides lineCount
        (ErasurePlan.mainText spans average keepRatio) ∧
      Exact.plan? (ErasurePlan.minWidth average keepRatio) lineCount 0 spans =
        some (planErasure spans average lineCount keepRatio) := by
  have hs : ∀ s ∈ spans, s.start.toNat ≤ s.stop.toNat ∧ s.stop.toNat < lineCount.toNat :=
    fun s hm =>
      ⟨UInt32.le_iff_toNat_le.mp (hs s hm).left, UInt32.lt_iff_toNat_lt.mp (hs s hm).right⟩
  have ho : spans.IsChain Span.Before := ho.imp fun _ _ => UInt32.lt_iff_toNat_lt.mp
  have h := Span.Laid.of_isChain (Nat.zero_le _) hs ho fun _ _ => Nat.zero_le _
  have hkept := h.sublist (Nat.zero_le _) (List.filter_sublist (p := fun s =>
    ErasurePlan.minWidth average keepRatio ≤ s.width))
  exact ⟨ErasurePlan.divides_gaps hkept, Exact.plan?_eq_gaps hs⟩

-- Between two wide spans there is a narrow one, and behind the last of them there is one line.
def narrowBetween : List Span :=
  [⟨5, 15⟩, ⟨20, 23⟩, ⟨30, 40⟩]

theorem planErasure_divides_narrowBetween :
    (∀ s ∈ narrowBetween, s.start ≤ s.stop ∧ s.stop < 42) ∧
      narrowBetween.IsChain (fun s t => s.stop < t.start) ∧
      planErasure narrowBetween 8 42 0.9 = ⟨[⟨0, 5⟩, ⟨16, 14⟩], 2⟩ ∧
      (planErasure narrowBetween 8 42 0.9).Divides 42 [⟨5, 15⟩, ⟨30, 40⟩] := by
  have hs : ∀ s ∈ narrowBetween, s.start ≤ s.stop ∧ s.stop < 42 := by decide
  have ho : narrowBetween.IsChain (fun s t => s.stop < t.start) := by decide
  have hk : ErasurePlan.mainText narrowBetween 8 0.9 = [⟨5, 15⟩, ⟨30, 40⟩] := by decide +kernel
  have h := (@planErasure_divides 42 8 narrowBetween 0.9 hs ho).left
  exact ⟨hs, ho, by decide +kernel, hk ▸ h⟩

end PagePrep
