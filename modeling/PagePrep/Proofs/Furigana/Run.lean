import Mathlib.Tactic.Common
import PagePrep.Furigana.Span

-- Runs of good lines. What a page looks like does not matter here: `good` tells the good lines
-- from the others, and the lines are counted from zero.

namespace PagePrep

variable {good good' : Nat → Bool} {lineCount minWidth capacity line : Nat} {s t : Span}

theorem toNat_add_one {n : UInt32} (h : n.toNat + 1 < UInt32.size) :
    (n + 1).toNat = n.toNat + 1 := by
  rw [UInt32.toNat_add, UInt32.toNat_one, Nat.mod_eq_of_lt h]

namespace Span

theorem ext_toNat (h₁ : s.start.toNat = t.start.toNat) (h₂ : s.stop.toNat = t.stop.toNat) :
    s = t := by
  cases s
  cases t
  simp_all [UInt32.toNat_inj]

-- The width of a span does not wrap around as long as its lines can be counted.
theorem toNat_width (hle : s.start.toNat ≤ s.stop.toNat) (hlt : s.stop.toNat + 1 < UInt32.size) :
    s.width.toNat = s.stop.toNat - s.start.toNat + 1 := by
  have hs := UInt32.toNat_sub_of_le _ _ (UInt32.le_iff_toNat_le.mpr hle)
  rw [width, toNat_add_one (by omega), hs]

abbrev Before (s t : Span) : Prop :=
  s.stop.toNat < t.start.toNat

-- A span covers also the line that closed it.
def Covers (s : Span) (line : Nat) : Prop :=
  s.start.toNat ≤ line ∧ line ≤ s.stop.toNat

instance : Decidable (s.Covers line) :=
  inferInstanceAs (Decidable (_ ∧ _))

def goodLines (good : Nat → Bool) (s : Span) : Nat :=
  (List.range' s.start.toNat (s.stop.toNat + 1 - s.start.toNat)).countP good

theorem goodLines_le : s.goodLines good ≤ s.stop.toNat + 1 - s.start.toNat := by
  have h := List.countP_le_length (p := good)
    (l := List.range' s.start.toNat (s.stop.toNat + 1 - s.start.toNat))
  rwa [List.length_range'] at h

theorem goodLines_congr (h : ∀ line, s.Covers line → good line = good' line) :
    s.goodLines good = s.goodLines good' := by
  refine List.countP_congr fun line hm => ?_
  rw [List.mem_range'_1] at hm
  rw [h line ⟨hm.left, by omega⟩]

-- The span of a maximal run of good lines: nothing can be added in front of it, and it goes on to
-- the next bad line or to the last line of all, which may be good or bad.
structure IsRun (good : Nat → Bool) (lineCount : Nat) (s : Span) : Prop where
  start_lt : s.start.toNat < s.stop.toNat
  stop_lt  : s.stop.toNat < lineCount
  inside   : ∀ line, s.start.toNat ≤ line → line < s.stop.toNat → good line
  opened   : ∀ line, line + 1 = s.start.toNat → good line = false
  closed   : s.stop.toNat + 1 < lineCount → good s.stop.toNat = false

instance : Decidable (s.IsRun good lineCount) :=
  decidable_of_iff (s.start.toNat < s.stop.toNat ∧ s.stop.toNat < lineCount ∧
      (∀ line < s.stop.toNat, s.start.toNat ≤ line → good line) ∧
      (∀ line < s.start.toNat, line + 1 = s.start.toNat → good line = false) ∧
      (s.stop.toNat + 1 < lineCount → good s.stop.toNat = false)) <| by
    constructor
    case mp =>
      intro ⟨h₁, h₂, h₃, h₄, h₅⟩
      exact ⟨h₁, h₂, fun _ hl hs => h₃ _ hs hl, fun _ hl => h₄ _ (by omega) hl, h₅⟩
    case mpr =>
      intro ⟨h₁, h₂, h₃, h₄, h₅⟩
      exact ⟨h₁, h₂, fun _ hs hl => h₃ _ hl hs, fun _ _ => h₄ _, h₅⟩

namespace IsRun

theorem goodLines_eq (h : s.IsRun good lineCount) :
    s.goodLines good = s.stop.toNat - s.start.toNat + (good s.stop.toNat).toNat := by
  have hl := h.start_lt
  have hc : (List.range' s.start.toNat (s.stop.toNat - s.start.toNat)).countP good =
      s.stop.toNat - s.start.toNat := by
    rw [List.countP_eq_length.mpr, List.length_range']
    intro line hm
    rw [List.mem_range'_1] at hm
    exact h.inside line hm.left (by omega)
  have hs : s.stop.toNat + 1 - s.start.toNat = s.stop.toNat - s.start.toNat + 1 := by omega
  have he : s.start.toNat + (s.stop.toNat - s.start.toNat) = s.stop.toNat := by omega
  rw [goodLines, hs, List.range'_1_concat, List.countP_append, hc, he, List.countP_singleton]
  cases good s.stop.toNat <;> rfl

-- Of two runs the one that starts first is closed before the other starts.
theorem before (hs : s.IsRun good lineCount) (ht : t.IsRun good lineCount)
    (h : s.start.toNat < t.start.toNat) : s.Before t := by
  by_contra hc
  have htl := ht.start_lt
  have htc := ht.stop_lt
  by_cases he : t.start.toNat = s.stop.toNat
  case pos =>
    have hb := hs.closed (by omega)
    have hg := ht.inside s.stop.toNat (by omega) (by omega)
    simp [hb] at hg
  case neg =>
    have hb := ht.opened (t.start.toNat - 1) (by omega)
    have hg := hs.inside (t.start.toNat - 1) (by omega) (by omega)
    simp [hb] at hg

theorem not_stop_lt_stop (hs : s.IsRun good lineCount) (ht : t.IsRun good lineCount)
    (h : s.start = t.start) : ¬s.stop.toNat < t.stop.toNat := by
  intro hc
  have htc := ht.stop_lt
  have hsl := hs.start_lt
  have hb := hs.closed (by omega)
  have hg := ht.inside s.stop.toNat (by rw [←h]; omega) hc
  simp [hb] at hg

theorem eq_of_start_eq (hs : s.IsRun good lineCount) (ht : t.IsRun good lineCount)
    (h : s.start = t.start) : s = t := by
  have h₁ := hs.not_stop_lt_stop ht h
  have h₂ := ht.not_stop_lt_stop hs h.symm
  exact ext_toNat (h ▸ rfl) (by omega)

theorem trichotomy (hs : s.IsRun good lineCount) (ht : t.IsRun good lineCount) :
    s.Before t ∨ s = t ∨ t.Before s := by
  obtain h | h | h := Nat.lt_trichotomy s.start.toNat t.start.toNat
  case inl     => exact .inl <| hs.before ht h
  case inr.inl => exact .inr <| .inl <| hs.eq_of_start_eq ht <| UInt32.toNat_inj.mp h
  case inr.inr => exact .inr <| .inr <| ht.before hs h

-- No line belongs to two runs, so one that another starts with is enough to tell them to be equal.
theorem eq_of_covers_start (hs : s.IsRun good lineCount) (ht : t.IsRun good lineCount)
    (hc : s.Covers t.start.toNat) : s = t := by
  have hle := hc.left
  have hle' := hc.right
  have hlt := ht.start_lt
  obtain h | h | h := hs.trichotomy ht
  case inl     => omega
  case inr.inl => exact h
  case inr.inr => omega

-- Only the lines of the run and the one in front of it matter.
theorem congr (hs : s.IsRun good lineCount) (h : ∀ line, s.Covers line → good line = good' line)
    (ho : ∀ line, line + 1 = s.start.toNat → good' line = false) : s.IsRun good' lineCount where
  start_lt := hs.start_lt
  stop_lt  := hs.stop_lt
  inside   := fun line h₁ h₂ => h line ⟨h₁, Nat.le_of_lt h₂⟩ ▸ hs.inside line h₁ h₂
  opened   := ho
  closed   := fun hc => h _ ⟨Nat.le_of_lt hs.start_lt, Nat.le_refl _⟩ ▸ hs.closed hc

end IsRun

structure IsWideRun (good : Nat → Bool) (lineCount minWidth : Nat) (s : Span) : Prop
    extends s.IsRun good lineCount where
  wide : minWidth ≤ s.goodLines good

instance {minWidth : Nat} : Decidable (s.IsWideRun good lineCount minWidth) :=
  decidable_of_iff (s.IsRun good lineCount ∧ minWidth ≤ s.goodLines good)
    ⟨fun ⟨h, hw⟩ => ⟨h, hw⟩, fun h => ⟨h.toIsRun, h.wide⟩⟩

end Span

-- The first wide runs of a page, in order, as many as there is room for.
structure FirstRuns (good : Nat → Bool) (lineCount minWidth capacity : Nat) (spans : List Span) :
    Prop where
  ordered   : spans.Pairwise Span.Before
  sound     : ∀ s ∈ spans, s.IsWideRun good lineCount minWidth
  length_le : spans.length ≤ capacity
  complete  : ∀ s : Span, s.IsWideRun good lineCount minWidth →
    s ∈ spans ∨ (spans.length = capacity ∧ ∀ t ∈ spans, t.Before s)

namespace FirstRuns

variable {spans spans₁ spans₂ : List Span}

theorem nodup (h : FirstRuns good lineCount minWidth capacity spans) : spans.Nodup := by
  refine h.ordered.imp_of_mem fun {s t} hs _ hl he => ?_
  have := (h.sound s hs).start_lt
  subst he
  omega

-- If a run were in one list only, then the other list would be full of earlier runs, and the one
-- with the run would hold all of these as well.
theorem subset (h₁ : FirstRuns good lineCount minWidth capacity spans₁)
    (h₂ : FirstRuns good lineCount minWidth capacity spans₂) : spans₁ ⊆ spans₂ := by
  intro s hs
  by_contra hn
  have ⟨hl, hb⟩ := h₂.complete s (h₁.sound s hs) |>.resolve_left hn
  have hsub : s :: spans₂ ⊆ spans₁ := by
    intro t ht
    cases ht
    case head => exact hs
    case tail ht =>
      refine h₁.complete t (h₂.sound t ht) |>.resolve_right fun ⟨_, hc⟩ => ?_
      have := hb t ht
      have := hc s hs
      have := (h₁.sound s hs).start_lt
      have := (h₂.sound t ht).start_lt
      omega
  have hle := List.Nodup.length_le_of_subset (List.nodup_cons.mpr ⟨hn, h₂.nodup⟩) hsub
  have := h₁.length_le
  simp only [List.length_cons] at hle
  omega

theorem unique (h₁ : FirstRuns good lineCount minWidth capacity spans₁)
    (h₂ : FirstRuns good lineCount minWidth capacity spans₂) : spans₁ = spans₂ := by
  refine List.Perm.eq_of_pairwise (fun s t hs ht h h' => ?_) h₁.ordered h₂.ordered ?_
  · have := (h₁.sound s hs).start_lt
    have := (h₂.sound t ht).start_lt
    omega
  · exact List.perm_ext_iff_of_nodup h₁.nodup h₂.nodup |>.mpr fun _ =>
      ⟨(h₁.subset h₂ ·), (h₂.subset h₁ ·)⟩

end FirstRuns

end PagePrep
