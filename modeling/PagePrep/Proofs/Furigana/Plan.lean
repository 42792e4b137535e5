import PagePrep.Furigana.Plan
import PagePrep.Proofs.Furigana.Run

-- The bands of an erasure plan are the lines outside of the spans that it keeps, but for a final
-- line that would be a band of its own.

namespace PagePrep

variable {lineCount cursor : UInt32} {line : Nat} {spans : List Span} {bands : List Band}

namespace Band

def Covers (b : Band) (line : Nat) : Prop :=
  b.offset.toNat ≤ line ∧ line < b.offset.toNat + b.extent.toNat

instance (b : Band) : Decidable (b.Covers line) :=
  inferInstanceAs (Decidable (_ ∧ _))

def lines (b : Band) : List Nat :=
  List.range' b.offset.toNat b.extent.toNat

theorem mem_lines_iff {b : Band} : line ∈ b.lines ↔ b.Covers line :=
  List.mem_range'_1

-- There is at least one line between the two bands.
abbrev Before (a b : Band) : Prop :=
  a.offset.toNat + a.extent.toNat < b.offset.toNat

theorem nodup_lines (h : bands.Pairwise Before) : (bands.flatMap lines).Nodup := by
  refine List.pairwise_flatMap.mpr ⟨fun b _ => List.nodup_range' .., h.imp fun h l hl l' hl' => ?_⟩
  have := mem_lines_iff.mp hl
  have := mem_lines_iff.mp hl'
  simp only [Covers] at *
  omega

end Band

-- Spans one behind the other, from the line `cursor` on.
inductive Span.Laid (lineCount : Nat) : Nat → List Span → Prop
  | nil {c} : c ≤ lineCount → Laid lineCount c []
  | cons {c s rest} :
    c ≤ s.start.toNat → s.start.toNat ≤ s.stop.toNat → s.stop.toNat < lineCount →
    Laid lineCount (s.stop.toNat + 1) rest → Laid lineCount c (s :: rest)

namespace Span.Laid

variable {lineCount cursor : Nat} {s : Span} {kept : List Span}

theorem of_ordered (hc : cursor ≤ lineCount) (ho : spans.Pairwise Before)
    (hs : ∀ s ∈ spans, s.start.toNat ≤ s.stop.toNat ∧ s.stop.toNat < lineCount)
    (hf : ∀ s ∈ spans, cursor ≤ s.start.toNat) : Laid lineCount cursor spans := by
  induction spans generalizing cursor
  case nil => exact .nil hc
  case cons s rest ih =>
    have ⟨hb, hr⟩ := List.pairwise_cons.mp ho
    have ⟨⟨hle, hlt⟩, hs⟩ := List.forall_mem_cons.mp hs
    exact .cons (hf s List.mem_cons_self) hle hlt <| ih hlt hr hs hb

theorem le_start (h : Laid lineCount cursor spans) (hs : s ∈ spans) : cursor ≤ s.start.toNat := by
  induction h
  case nil => nomatch hs
  case cons hc hle _ _ ih =>
    cases hs
    case head    => exact hc
    case tail hs => exact Nat.le_trans (Nat.le_trans hc hle) (Nat.le_of_succ_le (ih hs))

theorem bounds (h : Laid lineCount cursor spans) (hs : s ∈ spans) :
    s.start.toNat ≤ s.stop.toNat ∧ s.stop.toNat < lineCount := by
  induction h
  case nil => nomatch hs
  case cons _ hle hlt _ ih =>
    cases hs
    case head    => exact ⟨hle, hlt⟩
    case tail hs => exact ih hs

theorem ordered (h : Laid lineCount cursor spans) : spans.Pairwise Before := by
  induction h
  case nil               => exact .nil
  case cons _ _ _ hr ih  => exact .cons (fun _ ht => hr.le_start ht) ih

theorem sublist (h : Laid lineCount cursor spans) (hc : cursor ≤ lineCount)
    (hsub : kept.Sublist spans) : Laid lineCount cursor kept :=
  .of_ordered hc (h.ordered.sublist hsub) (fun _ hs => h.bounds (hsub.subset hs))
    fun _ hs => h.le_start (hsub.subset hs)

end Span.Laid

namespace ErasurePlan

-- The line behind the last span.
def behind (cursor : Nat) : List Span → Nat
  | []        => cursor
  | s :: rest => behind (s.stop.toNat + 1) rest

theorem behind_eq {cursor : Nat} {s : Span} (h : s ∈ spans.getLast?) :
    behind cursor spans = s.stop.toNat + 1 := by
  induction spans generalizing cursor
  case nil => nomatch h
  case cons t rest ih =>
    cases rest
    case nil      => cases h; rfl
    case cons u _ =>
      rw [behind]
      exact ih (by simpa using h)

theorem gaps_cons {s : Span} :
    gaps lineCount cursor (s :: spans) =
      (if cursor < s.start then [⟨cursor, s.start - cursor⟩] else []) ++
        gaps lineCount (s.stop + 1) spans := by
  rw [gaps]
  split <;> rfl

theorem exists_covers_gaps_cons_iff {s : Span} :
    (∃ b ∈ gaps lineCount cursor (s :: spans), b.Covers line) ↔
      (cursor.toNat ≤ line ∧ line < s.start.toNat) ∨
        ∃ b ∈ gaps lineCount (s.stop + 1) spans, b.Covers line := by
  rw [gaps_cons]
  by_cases hc : cursor < s.start
  case pos =>
    have hlt := UInt32.lt_iff_toNat_lt.mp hc
    have he : cursor.toNat + (s.start.toNat - cursor.toNat) = s.start.toNat := by omega
    simp [hc, Band.Covers, UInt32.toNat_sub_of_le _ _ (UInt32.le_of_lt hc), he]
  case neg =>
    rw [UInt32.lt_iff_toNat_lt] at hc
    have hn : ¬(cursor.toNat ≤ line ∧ line < s.start.toNat) := by omega
    simp [hc, hn, UInt32.lt_iff_toNat_lt]

-- What is taken off the bands while the spans are walked through is left of the next span.
theorem exists_covers_gaps_iff (h : Span.Laid lineCount.toNat cursor.toNat spans)
    (hl : line < lineCount.toNat) (hk : cursor ≠ 0 ∨ spans ≠ []) :
    (∃ b ∈ gaps lineCount cursor spans, b.Covers line) ↔
      cursor.toNat ≤ line ∧ (∀ s ∈ spans, ¬s.Covers line) ∧
        ¬(behind cursor.toNat spans + 1 = lineCount.toNat ∧ line + 1 = lineCount.toNat) := by
  induction spans generalizing cursor
  case nil =>
    cases h with | nil h =>
    have hk : cursor ≠ 0 := by simpa using hk
    have hs := UInt32.toNat_sub_of_le _ _ (UInt32.le_iff_toNat_le.mpr h)
    by_cases hc : cursor.toNat + 1 < lineCount.toNat
    case pos => simp [gaps, hk, hc, behind, Band.Covers, hs]; omega
    case neg => simp [gaps, hc, behind]; omega
  case cons s rest ih =>
    cases h with | cons hc hle hlt hr =>
    have hstop := toNat_add_one (n := s.stop) (Nat.lt_of_le_of_lt hlt lineCount.toNat_lt)
    have hz : s.stop + 1 ≠ 0 := fun hz => by simp [hz] at hstop
    rw [exists_covers_gaps_cons_iff, ih (hstop ▸ hr) (.inl hz), hstop, List.forall_mem_cons, behind]
    constructor
    case mp =>
      intro h
      cases h
      case inl h =>
        refine ⟨h.left, ⟨fun hs => ?_, fun t ht hc => ?_⟩, by omega⟩
        · exact absurd hs.left (by omega)
        · have := hr.le_start ht
          have := hc.left
          omega
      case inr h =>
        have ⟨hl, hr, hlast⟩ := h
        exact ⟨by omega, ⟨fun hs => absurd hs.right (by omega), hr⟩, hlast⟩
    case mpr =>
      intro ⟨h₁, ⟨h₂, h₃⟩, h₄⟩
      by_cases hb : line < s.start.toNat
      case pos => exact .inl ⟨h₁, hb⟩
      case neg => exact .inr ⟨Nat.not_le.mp fun hs => h₂ ⟨by omega, hs⟩, h₃, h₄⟩

theorem bounds_of_mem_gaps {b : Band} (h : Span.Laid lineCount.toNat cursor.toNat spans)
    (hb : b ∈ gaps lineCount cursor spans) :
    cursor.toNat ≤ b.offset.toNat ∧ 0 < b.extent.toNat ∧
      b.offset.toNat + b.extent.toNat ≤ lineCount.toNat := by
  induction spans generalizing cursor
  case nil =>
    cases h with | nil h =>
    have hs := UInt32.toNat_sub_of_le _ _ (UInt32.le_iff_toNat_le.mpr h)
    rw [gaps] at hb
    split at hb
    case isTrue hc =>
      cases List.mem_singleton.mp hb
      simp only [hs]
      omega
    case isFalse => nomatch hb
  case cons s rest ih =>
    cases h with | cons hc hle hlt hr =>
    have hstop := toNat_add_one (n := s.stop) (Nat.lt_of_le_of_lt hlt lineCount.toNat_lt)
    rw [gaps_cons, List.mem_append] at hb
    cases hb
    case inl hb =>
      split at hb
      case isTrue hcs =>
        cases List.mem_singleton.mp hb
        have := UInt32.lt_iff_toNat_lt.mp hcs
        simp only [UInt32.toNat_sub_of_le _ _ (UInt32.le_of_lt hcs)]
        omega
      case isFalse => nomatch hb
    case inr hb =>
      have := ih (hstop ▸ hr) hb
      omega

-- There is a span between any two bands.
theorem separated_gaps (h : Span.Laid lineCount.toNat cursor.toNat spans) :
    (gaps lineCount cursor spans).Pairwise fun a b => ∃ s ∈ spans,
      a.offset.toNat + a.extent.toNat ≤ s.start.toNat ∧ s.stop.toNat < b.offset.toNat := by
  induction spans generalizing cursor
  case nil =>
    rw [gaps]
    split
    · exact List.pairwise_singleton ..
    · exact .nil
  case cons s rest ih =>
    cases h with | cons hc hle hlt hr =>
    have hstop := toNat_add_one (n := s.stop) (Nat.lt_of_le_of_lt hlt lineCount.toNat_lt)
    have ih := ih (hstop ▸ hr)
    rw [gaps_cons]
    refine List.pairwise_append.mpr ⟨?_, ih.imp ?_, fun a ha b hb => ?_⟩
    · split
      · exact List.pairwise_singleton ..
      · exact .nil
    · exact fun ⟨t, ht, hab⟩ => ⟨t, List.mem_cons_of_mem _ ht, hab⟩
    · split at ha
      case isTrue hcs =>
        cases List.mem_singleton.mp ha
        have := UInt32.lt_iff_toNat_lt.mp hcs
        have := bounds_of_mem_gaps (hstop ▸ hr) hb
        refine ⟨s, List.mem_cons_self, ?_⟩
        simp only [UInt32.toNat_sub_of_le _ _ (UInt32.le_of_lt hcs)]
        omega
      case isFalse => nomatch ha

theorem ordered_gaps (h : Span.Laid lineCount.toNat cursor.toNat spans) :
    (gaps lineCount cursor spans).Pairwise Band.Before :=
  (separated_gaps h).imp fun ⟨_, hs, ha, hb⟩ =>
    Nat.lt_of_le_of_lt (Nat.le_trans ha (h.bounds hs).left) hb

-- The lines that stay as they are if all but the spans in `kept` is to go. They include the final
-- line if it is all that is left behind the last span.
def Spares (lineCount : Nat) (kept : List Span) (line : Nat) : Prop :=
  (∃ s ∈ kept, s.Covers line) ∨
    ∃ s ∈ kept.getLast?, s.stop.toNat + 2 = lineCount ∧ line + 1 = lineCount

instance {lineCount : Nat} {kept : List Span} : Decidable (Spares lineCount kept line) :=
  inferInstanceAs (Decidable (_ ∨ _))

-- Nothing goes where nothing is kept.
def Erases (lineCount : Nat) (kept : List Span) (line : Nat) : Prop :=
  kept ≠ [] ∧ ¬Spares lineCount kept line

instance {lineCount : Nat} {kept : List Span} : Decidable (Erases lineCount kept line) :=
  inferInstanceAs (Decidable (_ ∧ _))

theorem exists_covers_gaps_iff_erases (h : Span.Laid lineCount.toNat 0 spans)
    (hl : line < lineCount.toNat) :
    (∃ b ∈ gaps lineCount 0 spans, b.Covers line) ↔ Erases lineCount.toNat spans line := by
  by_cases hs : spans = []
  case pos => simp [hs, gaps, Erases]
  case neg =>
    have ⟨s, hlast⟩ : ∃ s, spans.getLast? = some s := ⟨_, List.getLast?_eq_some_getLast hs⟩
    have hb : behind 0 spans = s.stop.toNat + 1 := behind_eq hlast
    rw [exists_covers_gaps_iff h hl (.inr hs)]
    simp only [UInt32.toNat_zero, Erases, Spares, hlast, hb, Option.mem_some, not_or]
    simp [hs]

-- As bands do not overlap, their lines can be counted one band after the other.
theorem sum_extents_eq (h : bands.Pairwise Band.Before) {lineCount : Nat} {p : Nat → Prop}
    [DecidablePred p] (hp : ∀ line, (∃ b ∈ bands, b.Covers line) ↔ line < lineCount ∧ p line) :
    bands.foldr (fun band lines => band.extent.toNat + lines) 0 =
      (List.range lineCount).countP p := by
  have hlength : bands.foldr (fun band lines => band.extent.toNat + lines) 0 =
      (bands.flatMap Band.lines).length := by
    clear h hp
    induction bands
    case nil          => rfl
    case cons _ _ ih  => simp [ih, Band.lines]
  rw [hlength, List.countP_eq_length_filter]
  refine List.Perm.length_eq <| List.perm_ext_iff_of_nodup (Band.nodup_lines h)
    (List.nodup_range.filter _) |>.mpr fun line => ?_
  simp [List.mem_flatMap, Band.mem_lines_iff, hp]

theorem sum_extents_gaps (h : Span.Laid lineCount.toNat 0 spans) :
    (gaps lineCount 0 spans).foldr (fun band lines => band.extent.toNat + lines) 0 =
      (List.range lineCount.toNat).countP fun line => Erases lineCount.toNat spans line := by
  refine sum_extents_eq (ordered_gaps h) fun line => ?_
  constructor
  case mp =>
    intro ⟨b, hb, hc⟩
    have hl := Nat.lt_of_lt_of_le hc.right (bounds_of_mem_gaps h hb).right.right
    exact ⟨hl, exists_covers_gaps_iff_erases h hl |>.mp ⟨b, hb, hc⟩⟩
  case mpr => exact fun ⟨hl, he⟩ => exists_covers_gaps_iff_erases h hl |>.mpr he

end ErasurePlan

end PagePrep
