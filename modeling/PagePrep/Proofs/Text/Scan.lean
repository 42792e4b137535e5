import Mathlib
import PagePrep.Proofs.Number.Numeral

-- How far the parts of a written number are read, given what stands behind it.

namespace PagePrep

namespace Scan

variable {p : Char → Bool} {ds rest : List Char}

-- What may stand behind a value: nothing, a comma or the end of the line.
def Follows (rest : List Char) : Prop :=
  ∀ c ∈ rest.head?, c = ',' ∨ c = '\n'

theorem Follows.nil : Follows [] :=
  fun _ h => nomatch h

theorem Follows.comma (rest : List Char) : Follows (',' :: rest) := by
  simp [Follows]

theorem Follows.newline (rest : List Char) : Follows ('\n' :: rest) := by
  simp [Follows]

theorem span_append (hd : ∀ c ∈ ds, p c) (hr : ∀ c ∈ rest.head?, ¬p c) :
    (ds ++ rest).span p = (ds, rest) := by
  rw [List.span_eq_takeWhile_dropWhile, List.takeWhile_append_of_pos hd,
    List.dropWhile_append_of_pos hd]
  cases rest
  case nil         => simp
  case cons c rest =>
    have hc := hr c rfl
    simp [hc]

theorem digits?_append (hd : ∀ c ∈ ds, c.isDigit) (hne : ds ≠ [])
    (hr : ∀ c ∈ rest.head?, ¬c.isDigit) : digits? (ds ++ rest) = some (ds, rest) := by
  obtain ⟨c, ds, rfl⟩ := List.exists_cons_of_ne_nil hne
  rw [digits?, span_append hd hr]

end Scan

namespace Numeral

open Scan

variable {n : Numeral} {rest : List Char}

theorem head_scale (hr : Follows rest) :
    ∀ c ∈ (n.scale ++ rest).head?, c = 'e' ∨ c = ',' ∨ c = '\n' := by
  intro c hc
  rw [scale] at hc
  cases he : n.exponent
  case none =>
    rw [he] at hc
    exact .inr (hr c hc)
  case some e =>
    rw [he] at hc
    exact .inl (Option.some.inj hc).symm

theorem head_fraction (hr : Follows rest) :
    ∀ c ∈ (n.fraction ++ (n.scale ++ rest)).head?, c = '.' ∨ c = 'e' ∨ c = ',' ∨ c = '\n' := by
  intro c hc
  rw [fraction] at hc
  split at hc
  case isTrue  => exact .inr (head_scale hr c hc)
  case isFalse => exact .inl (Option.some.inj hc).symm

theorem not_isDigit_of_head (hr : Follows rest) :
    ∀ c ∈ (n.fraction ++ (n.scale ++ rest)).head?, ¬c.isDigit := by
  intro c hc
  obtain rfl | rfl | rfl | rfl := head_fraction hr c hc <;> decide

-- The digits of an exponent and what they say with the sign in front of them.
theorem sign_exponent {e : Int} {cs : List Char} :
    sign ((if e < 0 then '-' else '+') :: cs) = (decide (e < 0), cs) := by
  by_cases he : e < 0 <;> simp [sign, he]

theorem signed_natAbs (e : Int) : (if e < 0 then -(e.natAbs : Int) else e.natAbs) = e := by
  split <;> omega

-- No number begins with a sign of its own.
theorem exists_digit (n : Numeral) :
    ∃ c cs, c.isDigit ∧ n.chars = c :: cs := by
  obtain ⟨c, cs, hc⟩ := List.exists_cons_of_ne_nil n.whole_ne_nil
  refine ⟨c, cs ++ n.fraction ++ n.scale, n.whole_digits c (hc ▸ List.mem_cons_self), ?_⟩
  rw [chars, hc, List.cons_append, List.cons_append]

end Numeral

end PagePrep
