import Mathlib
import PagePrep.Number.Shortest
import PagePrep.Proofs.Number.Nearest

-- The digits that a number is written with read back as the number. Digits are only chosen if they
-- do, and with as many digits as the format needs one of the two decimal numbers around the number
-- always does: it is nearer than half the distance between two numbers of the format.

namespace PagePrep

section DigitCount

variable {n : Nat}

theorem digitCount_pos (n : Nat) : 0 < digitCount n := by
  rw [digitCount]
  split
  case isTrue  => exact Nat.one_pos
  case isFalse => exact Nat.succ_pos _

theorem lt_pow_digitCount (n : Nat) : n < 10 ^ digitCount n := by
  fun_induction digitCount n
  case case1 n h    => simpa using h
  case case2 n h ih =>
    rw [pow_succ]
    omega

theorem pow_le_of_ne_zero (h : n ≠ 0) : 10 ^ (digitCount n - 1) ≤ n := by
  fun_induction digitCount n
  case case1 n _     => simpa using Nat.one_le_iff_ne_zero.mpr h
  case case2 n hn ih =>
    have hpos := digitCount_pos (n / 10)
    have hle := ih (by omega)
    obtain ⟨k, hk⟩ := Nat.exists_eq_add_of_le' hpos
    rw [hk, Nat.add_sub_cancel] at hle ⊢
    rw [pow_succ]
    omega

end DigitCount

namespace Layout

variable {l : Layout} {tie : Tie} {bits n j : Nat} {negative negative' : Bool} {e : Int}

-- What a format must be like for decimal numbers to be read as if their powers of ten were always
-- worked out, and for its number of digits to be enough.
structure Sound (l : Layout) : Prop where
  precision_pos : 0 < l.precision
  tiny          : 2 * 2 ^ l.unit ≤ 10 ^ 400
  huge          : l.infinity ≤ l.exponentOf (10 ^ 400 * 2 ^ l.unit) * l.half
  fine          : 2 ^ l.precision < 10 ^ (l.digits - 1)

theorem sound_single : single.Sound := by
  constructor <;> decide +kernel

theorem sound_double : double.Sound := by
  constructor <;> decide +kernel

section Magnitude

variable (hl : l.Sound)
include hl

-- The bounds past which no power of ten is worked out make no difference.
theorem magnitude_eq_nearest {d : Decimal} (hd : d.digits ≠ 0) :
    d.magnitude l = l.nearest (d.digits * 10 ^ d.exponent.toNat) (10 ^ (-d.exponent).toNat) := by
  have hpos := digitCount_pos d.digits
  simp only [Decimal.magnitude, hd, false_or, Nat.pow_eq]
  split
  case isTrue h =>
    have hz : d.exponent.toNat = 0 := by omega
    have hle : digitCount d.digits + 400 ≤ (-d.exponent).toNat := by omega
    have hten := Nat.lt_of_lt_of_le (Nat.mul_pos Nat.two_pos (Nat.two_pow_pos _)) hl.tiny
    refine (nearest_eq_zero hl.precision_pos ?_).symm
    calc 2 * (d.digits * 10 ^ d.exponent.toNat * 2 ^ l.unit)
      _ = d.digits * (2 * 2 ^ l.unit)             := by rw [hz]; ring
      _ ≤ d.digits * 10 ^ 400                     := Nat.mul_le_mul_left _ hl.tiny
      _ < 10 ^ digitCount d.digits * 10 ^ 400     :=
        Nat.mul_lt_mul_of_pos_right (lt_pow_digitCount _) hten
      _ = 10 ^ (digitCount d.digits + 400)        := (pow_add ..).symm
      _ ≤ 10 ^ (-d.exponent).toNat                := Nat.pow_le_pow_right (by decide) hle
  case isFalse =>
    split
    case isFalse => rfl
    case isTrue h =>
      have hle : 400 + (-d.exponent).toNat ≤ digitCount d.digits - 1 + d.exponent.toNat := by omega
      refine (nearest_eq_infinity (Nat.pow_pos (by decide)) ?_ hl.huge).symm
      calc 10 ^ 400 * 2 ^ l.unit * 10 ^ (-d.exponent).toNat
        _ = 10 ^ (400 + (-d.exponent).toNat) * 2 ^ l.unit := by rw [pow_add, Nat.mul_right_comm]
        _ ≤ 10 ^ (digitCount d.digits - 1 + d.exponent.toNat) * 2 ^ l.unit :=
          Nat.mul_le_mul_right _ <| Nat.pow_le_pow_right (by decide) hle
        _ = 10 ^ (digitCount d.digits - 1) * 10 ^ d.exponent.toNat * 2 ^ l.unit := by rw [pow_add]
        _ ≤ d.digits * 10 ^ d.exponent.toNat * 2 ^ l.unit :=
          Nat.mul_le_mul_right _ <| Nat.mul_le_mul_right _ <| pow_le_of_ne_zero hd

-- Zeros behind the digits are as good as a greater exponent.
theorem magnitude_mul_pow :
    Decimal.magnitude l ⟨negative, n * 10 ^ j, e⟩ =
      Decimal.magnitude l ⟨negative', n, e + j⟩ := by
  by_cases hn : n = 0
  case pos => simp [Decimal.magnitude, hn]
  case neg =>
    have hnj : n * 10 ^ j ≠ 0 := Nat.mul_ne_zero hn (by positivity)
    rw [magnitude_eq_nearest hl hnj, magnitude_eq_nearest hl hn]
    refine nearest_congr (by positivity) (by positivity) ?_
    have he : j + e.toNat + (-(e + j)).toNat = (e + j).toNat + (-e).toNat := by omega
    have hp := congrArg (10 ^ ·) he
    simp only [pow_add] at hp
    simp only
    linear_combination n * hp

theorem magnitude_trim (fuel : Nat) (d : Digits) : (d.trim fuel).magnitude l = d.magnitude l := by
  induction fuel generalizing d
  case zero => rfl
  case succ fuel ih =>
    rw [Digits.trim]
    split
    case isFalse => rfl
    case isTrue h =>
      have hd : d.digits / 10 * 10 ^ 1 = d.digits := by omega
      have hm := @magnitude_mul_pow l (d.digits / 10) 1 false false d.exponent hl
      rw [hd] at hm
      rw [ih]
      exact hm.symm

end Magnitude

section Digits

-- A fraction has at least this many digits in front of the point or, for a negative number, at most
-- that many zeros behind it.
theorem pow_leadingExponent_le {num den : Nat} (hn : 0 < num) (hd : 0 < den) :
    den * 10 ^ (leadingExponent num den).toNat ≤ num * 10 ^ (-leadingExponent num den).toNat := by
  rw [leadingExponent]
  split
  case isTrue h =>
    have hq : num / den ≠ 0 := (Nat.div_pos h hd).ne'
    have hpos := digitCount_pos (num / den)
    have he : ((digitCount (num / den) : Int) - 1).toNat = digitCount (num / den) - 1 := by omega
    have hz : (-((digitCount (num / den) : Int) - 1)).toNat = 0 := by omega
    rw [he, hz, pow_zero, Nat.mul_one]
    exact Nat.le_trans (Nat.mul_le_mul_left _ (pow_le_of_ne_zero hq)) (Nat.mul_div_le num den)
  case isFalse h =>
    have he : (-(digitCount ((den - 1) / num) : Int)).toNat = 0 := by omega
    have hz : (- -(digitCount ((den - 1) / num) : Int)).toNat = digitCount ((den - 1) / num) := by
      omega
    rw [he, hz, pow_zero, Nat.mul_one]
    have hlt := (Nat.div_lt_iff_lt_mul hn).mp (lt_pow_digitCount ((den - 1) / num))
    rw [Nat.mul_comm]
    omega

-- A point of a grid that is no further away than the one on the other side.
theorem exists_nearest_point {num den : Nat} (hd : 0 < den) :
    ∃ c, (c = num / den ∨ c = num / den + 1) ∧ 2 * num ≤ 2 * (c * den) + den ∧
      2 * (c * den) ≤ 2 * num + den := by
  have hdiv := Nat.div_add_mod num den
  have hmod := Nat.mod_lt num hd
  generalize num / den = q at *
  generalize num % den = r at *
  by_cases hr : 2 * r ≤ den
  case pos => exact ⟨q, .inl rfl, by linarith, by linarith⟩
  case neg => exact ⟨q + 1, .inr rfl, by linarith, by linarith⟩

variable (hl : l.Sound)
include hl

-- One of the two points of a grid around a number is nearer than half the distance to the number
-- before it, if the grid is finer than that distance.
theorem onGrid_isSome {k : Int} (hi : bits + 1 ≤ l.infinity)
    (hk : 2 ^ l.unit * 10 ^ k.toNat < l.step bits * 10 ^ (-k).toNat)
    (hle : 2 ^ l.unit * 10 ^ k.toNat ≤ l.units (bits + 1) * 10 ^ (-k).toNat) :
    (l.onGrid tie (bits + 1) k).isSome := by
  simp only [onGrid, fraction_eq, Nat.pow_eq]
  generalize hnum : l.units (bits + 1) * 10 ^ (-k).toNat = num at *
  generalize hden : 2 ^ l.unit * 10 ^ k.toNat = den at *
  have hd : 0 < den := by rw [← hden]; positivity
  have hone : 1 ≤ num / den := (Nat.one_le_div_iff hd).mpr hle
  obtain ⟨c, hc, hlo, hhi⟩ := @exists_nearest_point num den hd
  have hm : Digits.magnitude l ⟨c, k⟩ = bits + 1 := by
    have hc0 : (⟨false, c, k⟩ : Decimal).digits ≠ 0 := by
      show c ≠ 0
      omega
    rw [Digits.magnitude, magnitude_eq_nearest hl hc0]
    have hprev := l.units_succ bits
    have hnext := l.units_succ (bits + 1)
    have hcd : c * 10 ^ k.toNat * 2 ^ l.unit = c * den := by rw [← hden]; ring
    have hstep : l.step bits * 10 ^ (-k).toNat ≤ l.step (bits + 1) * 10 ^ (-k).toNat :=
      Nat.mul_le_mul_right _ (l.step_le_succ bits)
    refine nearest_eq hl.precision_pos hi ?_ ?_
    · simp only [hcd]
      rw [hprev, add_mul] at hnum
      rw [hprev, add_mul, add_mul]
      linarith
    · simp only [hcd]
      rw [hnext, add_mul, add_mul]
      linarith
  have hmem (a b : Digits) (p : Prop) [Decidable p] (h : ⟨c, k⟩ = a ∨ ⟨c, k⟩ = b) :
      ⟨c, k⟩ ∈ if p then [a, b] else [b, a] := by
    split <;> simpa [or_comm] using h
  refine List.find?_isSome.mpr ⟨⟨c, k⟩, hmem _ _ _ ?_, decide_eq_true hm⟩
  simpa using hc

omit hl in
theorem magnitude_of_onGrid {k : Int} {d : Digits} (h : l.onGrid tie bits k = some d) :
    d.magnitude l = bits := by
  have h := List.find?_some (p := fun d => decide (Digits.magnitude l d = bits)) h
  exact of_decide_eq_true h

-- As many digits as the format needs make a grid that is fine enough.
theorem exists_onGrid (hi : bits + 1 ≤ l.infinity) :
    (l.onGrid tie (bits + 1) (leadingExponent (l.units (bits + 1)) (2 ^ l.unit) -
      (l.digits - 1 : Nat))).isSome := by
  have hpos : 0 < l.units (bits + 1) := l.units_zero ▸ l.units_strictMono (Nat.succ_pos bits)
  have htop := pow_leadingExponent_le hpos (Nat.two_pow_pos l.unit)
  generalize leadingExponent (l.units (bits + 1)) (2 ^ l.unit) = top at *
  generalize hk : top - (l.digits - 1 : Nat) = k
  -- The step of the grid is the power of ten of the first digit, cut down by the other digits.
  have hle : 2 ^ l.unit * 10 ^ k.toNat * 10 ^ (l.digits - 1) ≤
      l.units (bits + 1) * 10 ^ (-k).toNat := by
    have h₁ : k.toNat + (l.digits - 1) = top.toNat + ((-k).toNat - (-top).toNat) := by omega
    have h₂ : (-k).toNat = (-top).toNat + ((-k).toNat - (-top).toNat) := by omega
    rw [Nat.mul_assoc, ← pow_add, h₁, h₂, pow_add, pow_add, ← Nat.mul_assoc, ← Nat.mul_assoc, ← h₂]
    exact Nat.mul_le_mul_right _ htop
  have hone : 1 ≤ 10 ^ (l.digits - 1) := Nat.one_le_pow _ _ (by decide)
  refine onGrid_isSome hl hi ?_ (Nat.le_trans (Nat.le_mul_of_pos_right _ hone) hle)
  have hstep : 0 < l.step bits * 10 ^ (-k).toNat := Nat.mul_pos (l.step_pos bits) (by positivity)
  refine Nat.lt_of_mul_lt_mul_right (a := 10 ^ (l.digits - 1)) ?_
  calc 2 ^ l.unit * 10 ^ k.toNat * 10 ^ (l.digits - 1)
    _ ≤ l.units (bits + 1) * 10 ^ (-k).toNat                    := hle
    _ ≤ 2 ^ l.precision * l.step bits * 10 ^ (-k).toNat         :=
      Nat.mul_le_mul_right _ (l.units_succ_le hl.precision_pos bits)
    _ = l.step bits * 10 ^ (-k).toNat * 2 ^ l.precision         := by ring
    _ < l.step bits * 10 ^ (-k).toNat * 10 ^ (l.digits - 1)     :=
      Nat.mul_lt_mul_of_pos_left hl.fine hstep

theorem magnitude_shortest (hb : 0 < bits) (hi : bits < l.infinity) :
    (l.shortest tie bits).magnitude l = bits := by
  obtain ⟨bits, rfl⟩ := Nat.exists_eq_add_of_le' hb
  have hdigits : l.digits - 1 < l.digits := by
    have := hl.fine
    by_contra h
    have hz : l.digits - 1 = 0 := by omega
    rw [hz, pow_zero] at this
    have := Nat.one_le_two_pow (n := l.precision)
    omega
  simp only [shortest, fraction_eq, magnitude_trim hl]
  obtain ⟨d', hd'⟩ : ∃ d', ((List.range l.digits).findSome? fun (n : Nat) => l.onGrid tie (bits + 1)
      (leadingExponent (l.units (bits + 1)) (2 ^ l.unit) - n)) = some d' := by
    refine Option.isSome_iff_exists.mp <| List.findSome?_isSome_iff.mpr ?_
    exact ⟨l.digits - 1, List.mem_range.mpr hdigits, exists_onGrid hl (Nat.le_of_lt hi)⟩
  obtain ⟨n, -, hn⟩ := List.exists_of_findSome?_eq_some hd'
  rw [hd', Option.getD_some]
  exact magnitude_of_onGrid hn

theorem digits_shortest_ne_zero (hb : 0 < bits) (hi : bits < l.infinity) :
    (l.shortest tie bits).digits ≠ 0 := by
  intro hz
  have h := @magnitude_shortest l tie bits hl hb hi
  rw [Digits.magnitude, Decimal.magnitude, if_pos (.inl hz)] at h
  omega

end Digits

end Layout

end PagePrep
