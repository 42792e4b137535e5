import Mathlib
import PagePrep.Number.Layout

-- A fraction is rounded to the stored magnitude that it is nearer to than to both neighbors. So a
-- stored magnitude is rounded to itself, and two forms of one fraction are rounded alike.

namespace PagePrep

section RoundDiv

variable {tie : Tie} {num num' den den' q k : Nat}

theorem roundDiv_eq (hlo : 2 * q * den < 2 * num + den) (hhi : 2 * num < (2 * q + 1) * den) :
    roundDiv tie num den = q := by
  have hden : 0 < den := by
    by_contra h
    simp [Nat.eq_zero_of_not_pos h] at hhi
  have hmod := Nat.mod_lt num hden
  have hdiv := Nat.div_add_mod num den
  obtain hq | hq : num / den = q ∨ num / den + 1 = q := by
    have h₁ : num / den < q + 1 := (Nat.div_lt_iff_lt_mul hden).mpr (by nlinarith)
    have h₂ : q < num / den + 2 := by
      by_contra hc
      nlinarith
    omega
  case inl =>
    have hr : 2 * (num % den) < den := by
      rw [hq] at hdiv
      nlinarith
    simp only [roundDiv, if_pos hr, hq]
  case inr =>
    have hr : den < 2 * (num % den) := by
      subst hq
      nlinarith
    simp only [roundDiv, if_neg (Nat.lt_asymm hr), if_pos hr, hq]

theorem roundDiv_mul_left (hk : 0 < k) :
    roundDiv tie (k * num) (k * den) = roundDiv tie num den := by
  have hd : k * num / (k * den) = num / den := Nat.mul_div_mul_left _ _ hk
  have hl (a b : Nat) : 2 * (k * a) < k * b ↔ 2 * a < b := by
    rw [Nat.mul_left_comm, Nat.mul_lt_mul_left hk]
  have hg (a b : Nat) : k * b < 2 * (k * a) ↔ b < 2 * a := by
    rw [Nat.mul_left_comm, Nat.mul_lt_mul_left hk]
  simp only [roundDiv, hd, Nat.mul_mod_mul_left, hl, hg]

-- Two forms of one fraction.
theorem roundDiv_congr (hd : 0 < den) (hd' : 0 < den') (h : num * den' = num' * den) :
    roundDiv tie num den = roundDiv tie num' den' := by
  rw [← roundDiv_mul_left hd', ← @roundDiv_mul_left tie num' _ _ hd, Nat.mul_comm den', h,
    Nat.mul_comm den', Nat.mul_comm num']

theorem div_le_roundDiv : num / den ≤ roundDiv tie num den := by
  unfold roundDiv
  grind

theorem roundDiv_le_succ : roundDiv tie num den ≤ num / den + 1 := by
  unfold roundDiv
  grind

theorem roundDiv_le_roundDiv (h : num ≤ num') : roundDiv tie num den ≤ roundDiv tie num' den := by
  obtain hq | hq := Nat.lt_or_eq_of_le (Nat.div_le_div_right (c := den) h)
  case inl => exact Nat.le_trans roundDiv_le_succ (Nat.le_trans hq div_le_roundDiv)
  case inr =>
    -- The quotients are equal, so the remainders are in the order of the numerators.
    have hr : num % den ≤ num' % den := by
      have hm := Nat.div_add_mod num den
      have hm' := Nat.div_add_mod num' den
      rw [hq] at hm
      omega
    unfold roundDiv
    rw [hq]
    grind

end RoundDiv

namespace Layout

variable {l : Layout} {bits num den num' den' k e m n : Nat}

-- The least significand of all but the smallest magnitudes.
def half (l : Layout) : Nat :=
  2 ^ (l.precision - 1)

-- A stored magnitude, in units.
def units (l : Layout) (bits : Nat) : Nat :=
  (l.split bits).1 * 2 ^ (l.split bits).2

-- The distance to the next magnitude, in units.
def step (l : Layout) (bits : Nat) : Nat :=
  2 ^ (l.split bits).2

theorem half_pos (l : Layout) : 0 < l.half :=
  Nat.two_pow_pos _

theorem two_mul_half (hp : 0 < l.precision) : 2 * l.half = 2 ^ l.precision := by
  rw [half, ← pow_succ', Nat.sub_one_add_one (Nat.ne_of_gt hp)]

theorem step_pos (l : Layout) (bits : Nat) : 0 < l.step bits :=
  Nat.two_pow_pos _

theorem fraction_eq (l : Layout) (bits : Nat) : l.fraction bits = (l.units bits, 2 ^ l.unit) := by
  simp only [fraction, units, Nat.shiftLeft_eq, Nat.one_mul]

-- How a magnitude is made of its significand and its exponent.
inductive Split (l : Layout) : (bits m e : Nat) → Prop where
  | smallest {m : Nat} (hm : m < 2 * l.half) : Split l m m 0
  | normal {m e : Nat} (hlo : l.half ≤ m) (hhi : m < 2 * l.half) : Split l (e * l.half + m) m e

namespace Split

variable (h : l.Split bits m e)
include h

theorem bits_eq : bits = e * l.half + m := by
  cases h
  case smallest => simp
  case normal   => rfl

theorem lt : m < 2 * l.half := by
  cases h
  case smallest h => exact h
  case normal _ h => exact h

theorem le_or_eq : l.half ≤ m ∨ e = 0 := by
  cases h
  case smallest   => exact .inr rfl
  case normal h _ => exact .inl h

theorem split_eq : l.split bits = (m, e) := by
  have hpos := l.half_pos
  have hshift : 1 <<< (l.precision - 1) = l.half := Nat.one_shiftLeft _
  simp only [split, hshift]
  cases h
  case smallest hm =>
    by_cases hlt : bits < l.half
    case pos => simp [Nat.div_eq_of_lt hlt, Nat.mod_eq_of_lt hlt]
    case neg =>
      have hd : bits / l.half = 1 := Nat.div_eq_of_lt_le (by omega) (by omega)
      have hm := Nat.div_add_mod bits l.half
      rw [hd, Nat.mul_one] at hm
      simp [hd, hm]
  case normal hlo hhi =>
    have hd : (e * l.half + m) / l.half = e + 1 :=
      Nat.div_eq_of_lt_le (by nlinarith) (by nlinarith)
    have hm := Nat.div_add_mod (e * l.half + m) l.half
    rw [hd] at hm
    have hr : l.half + (e * l.half + m) % l.half = m := by nlinarith
    rw [hd, if_neg (Nat.succ_ne_zero e), hr, Nat.add_sub_cancel]

theorem units_eq : l.units bits = m * 2 ^ e := by
  rw [units, h.split_eq]

theorem step_eq : l.step bits = 2 ^ e := by
  rw [step, h.split_eq]

-- If the significand overflows, the exponent takes over.
theorem succ : l.Split (bits + 1) (m + 1) e ∨
    m + 1 = 2 * l.half ∧ l.Split (bits + 1) l.half (e + 1) := by
  have hm := h.lt
  have hb := h.bits_eq
  by_cases hlt : m + 1 < 2 * l.half
  case pos =>
    refine .inl ?_
    cases h
    case smallest   => exact .smallest hlt
    case normal hlo _ => exact .normal (Nat.le_succ_of_le hlo) hlt
  case neg =>
    have hm : m + 1 = 2 * l.half := by omega
    have he : bits + 1 = (e + 1) * l.half + l.half := by rw [hb]; linarith
    refine .inr ⟨hm, he ▸ .normal (Nat.le_refl _) ?_⟩
    have := l.half_pos
    omega

end Split

theorem exists_split (l : Layout) (bits : Nat) : ∃ m e, l.Split bits m e := by
  by_cases h : bits < 2 * l.half
  case pos => exact ⟨bits, 0, .smallest h⟩
  case neg =>
    have hdm := Nat.div_add_mod bits l.half
    have hmod := Nat.mod_lt bits l.half_pos
    have hdiv : 1 ≤ bits / l.half := (Nat.one_le_div_iff l.half_pos).mpr (by omega)
    have he : bits = (bits / l.half - 1) * l.half + (l.half + bits % l.half) := by
      obtain ⟨d, hd⟩ := Nat.exists_eq_add_of_le' hdiv
      rw [hd] at hdm ⊢
      rw [Nat.add_sub_cancel]
      linarith
    refine ⟨l.half + bits % l.half, bits / l.half - 1, ?_⟩
    nth_rewrite 1 [he]
    exact .normal (Nat.le_add_right ..) (by omega)

theorem units_succ (l : Layout) (bits : Nat) :
    l.units (bits + 1) = l.units bits + l.step bits := by
  obtain ⟨m, e, h⟩ := l.exists_split bits
  rw [h.units_eq, h.step_eq]
  cases h.succ
  case inl hs =>
    rw [hs.units_eq]
    ring
  case inr hs =>
    have hm : (m + 1) * 2 ^ e = 2 * l.half * 2 ^ e := by rw [hs.left]
    rw [hs.right.units_eq, pow_succ]
    linarith

theorem units_zero (l : Layout) : l.units 0 = 0 := by
  have h : l.Split 0 0 0 := .smallest (Nat.mul_pos Nat.two_pos l.half_pos)
  rw [h.units_eq, Nat.zero_mul]

theorem units_strictMono (l : Layout) : StrictMono l.units :=
  strictMono_nat_of_lt_succ fun bits => by
    rw [units_succ]
    exact Nat.lt_add_of_pos_right (l.step_pos bits)

theorem step_le_succ (l : Layout) (bits : Nat) : l.step bits ≤ l.step (bits + 1) := by
  obtain ⟨m, e, h⟩ := l.exists_split bits
  rw [h.step_eq]
  cases h.succ
  case inl hs => rw [hs.step_eq]
  case inr hs =>
    rw [hs.right.step_eq]
    exact Nat.pow_le_pow_right Nat.two_pos (Nat.le_succ e)

-- No magnitude has more steps than a significand can count.
theorem units_succ_le (hp : 0 < l.precision) (bits : Nat) :
    l.units (bits + 1) ≤ 2 ^ l.precision * l.step bits := by
  obtain ⟨m, e, h⟩ := l.exists_split bits
  rw [units_succ, h.units_eq, h.step_eq, ← two_mul_half hp]
  have := h.lt
  nlinarith [Nat.two_pow_pos e]

-- A significand that is short enough is one at any exponent.
theorem exists_units_eq (l : Layout) (e : Nat) (hm : m < 2 * l.half) :
    ∃ bits, l.units bits = m * 2 ^ e := by
  induction e generalizing m
  case zero => exact ⟨m, (Split.smallest hm).units_eq⟩
  case succ e ih =>
    by_cases h : m < l.half
    case pos =>
      obtain ⟨bits, hb⟩ := ih (m := 2 * m) (by omega)
      exact ⟨bits, hb.trans (by rw [pow_succ]; ring)⟩
    case neg => exact ⟨_, (Split.normal (Nat.not_lt.mp h) hm).units_eq⟩

section Rounding

-- The exponent that leaves a whole number of units its significant bits.
def exponentOf (l : Layout) (n : Nat) : Nat :=
  n.log2 + 1 - l.precision

theorem exponentOf_eq (hp : 0 < l.precision) (hlo : l.half * 2 ^ e ≤ n ∨ e = 0)
    (hhi : n < 2 * l.half * 2 ^ e) : l.exponentOf n = e := by
  rw [two_mul_half hp, ← pow_add] at hhi
  rw [exponentOf]
  by_cases hz : n = 0
  case pos =>
    subst hz
    have h := l.half_pos
    have : e = 0 := hlo.resolve_left (Nat.not_le.mpr (by positivity))
    simp only [Nat.log2_zero]
    omega
  case neg =>
    have hlog := (Nat.log2_lt hz).mpr hhi
    cases hlo
    case inl hlo =>
      rw [half, ← pow_add] at hlo
      have := (Nat.le_log2 hz).mpr hlo
      omega
    case inr => omega

theorem exponentOf_le_exponentOf (h : m ≤ n) : l.exponentOf m ≤ l.exponentOf n := by
  have hlog : m.log2 ≤ n.log2 := by
    by_cases hz : m = 0
    case pos => simp [hz]
    case neg => exact (Nat.le_log2 (by omega)).mpr (Nat.le_trans (Nat.log2_self_le hz) h)
  simp only [exponentOf]
  omega

-- The significand that is left of a whole number has no bit too many.
theorem lt_mul_exponentOf (hp : 0 < l.precision) (n : Nat) :
    n < 2 * l.half * 2 ^ l.exponentOf n := by
  rw [two_mul_half hp, ← pow_add]
  refine Nat.lt_of_lt_of_le Nat.lt_log2_self (Nat.pow_le_pow_right Nat.two_pos ?_)
  rw [exponentOf]
  omega

-- Nor has it one too few, but for the smallest exponent.
theorem mul_exponentOf_le (hp : 0 < l.precision) (h : l.exponentOf n ≠ 0) :
    l.half * 2 ^ l.exponentOf n ≤ n := by
  rw [exponentOf] at h
  have hz : n ≠ 0 := by
    rintro rfl
    simp only [Nat.log2_zero] at h
    omega
  rw [half, exponentOf, ← pow_add]
  exact Nat.le_trans (Nat.pow_le_pow_right Nat.two_pos (by omega)) (Nat.log2_self_le hz)

theorem roundDiv_exponentOf_le (hp : 0 < l.precision) (tie : Tie) (num den : Nat) :
    roundDiv tie num (den * 2 ^ l.exponentOf (num / den)) ≤ 2 * l.half := by
  refine Nat.le_trans roundDiv_le_succ ?_
  rw [Nat.succ_le_iff, ← Nat.div_div_eq_div_mul, Nat.div_lt_iff_lt_mul (Nat.two_pow_pos _)]
  exact lt_mul_exponentOf hp _

theorem le_roundDiv_exponentOf (hp : 0 < l.precision) (tie : Tie)
    (h : l.exponentOf (num / den) ≠ 0) :
    l.half ≤ roundDiv tie num (den * 2 ^ l.exponentOf (num / den)) := by
  refine Nat.le_trans ?_ div_le_roundDiv
  rw [← Nat.div_div_eq_div_mul, Nat.le_div_iff_mul_le (Nat.two_pow_pos _)]
  exact mul_exponentOf_le hp h

theorem nearest_def (l : Layout) (num den : Nat) :
    l.nearest num den = min (l.exponentOf (num * 2 ^ l.unit / den) * l.half +
      roundDiv .toEven (num * 2 ^ l.unit)
        (den * 2 ^ l.exponentOf (num * 2 ^ l.unit / den))) l.infinity := by
  simp only [nearest, exponentOf, half, Nat.shiftLeft_eq]

theorem nearest_mul_left (hk : 0 < k) : l.nearest (k * num) (k * den) = l.nearest num den := by
  rw [nearest_def, nearest_def, Nat.mul_assoc, Nat.mul_assoc, Nat.mul_div_mul_left _ _ hk,
    roundDiv_mul_left hk]

-- Two forms of one fraction.
theorem nearest_congr (hd : 0 < den) (hd' : 0 < den') (h : num * den' = num' * den) :
    l.nearest num den = l.nearest num' den' := by
  rw [← nearest_mul_left hd', ← @nearest_mul_left l num' _ _ hd, Nat.mul_comm den', h,
    Nat.mul_comm den', Nat.mul_comm num']

-- With a larger exponent a magnitude is larger whatever its significand is.
theorem nearest_le_nearest_left (hp : 0 < l.precision) (h : num ≤ num') :
    l.nearest num den ≤ l.nearest num' den := by
  have hu : num * 2 ^ l.unit ≤ num' * 2 ^ l.unit := Nat.mul_le_mul_right _ h
  have he := exponentOf_le_exponentOf (l := l) (Nat.div_le_div_right (c := den) hu)
  rw [nearest_def, nearest_def]
  refine min_le_min_right _ ?_
  obtain he | he := Nat.lt_or_eq_of_le he
  case inl =>
    have hlo := roundDiv_exponentOf_le hp .toEven (num * 2 ^ l.unit) den
    have hhi := le_roundDiv_exponentOf hp .toEven (Nat.ne_zero_of_lt he)
    have hmul := Nat.mul_le_mul_right l.half he
    rw [Nat.succ_mul] at hmul
    omega
  case inr =>
    rw [he]
    exact Nat.add_le_add_left (roundDiv_le_roundDiv hu) _

theorem nearest_le_nearest (hp : 0 < l.precision) (hd : 0 < den) (hd' : 0 < den')
    (h : num * den' ≤ num' * den) : l.nearest num den ≤ l.nearest num' den' := by
  rw [← nearest_mul_left hd', ← @nearest_mul_left l num' _ _ hd, Nat.mul_comm den',
    Nat.mul_comm den', Nat.mul_comm den num', Nat.mul_comm den]
  exact nearest_le_nearest_left hp h

-- The significand of two magnitudes next to each other may differ in length, so the exponent at
-- which a fraction between them is rounded may be that of either.
theorem nearest_eq_add (h : l.exponentOf (num * 2 ^ l.unit / den) = e)
    (hlo : 2 * m * (den * 2 ^ e) < 2 * (num * 2 ^ l.unit) + den * 2 ^ e)
    (hhi : 2 * (num * 2 ^ l.unit) < (2 * m + 1) * (den * 2 ^ e))
    (hi : e * l.half + m ≤ l.infinity) : l.nearest num den = e * l.half + m := by
  rw [nearest_def, h, roundDiv_eq hlo hhi, Nat.min_eq_left hi]

theorem nearest_eq (hp : 0 < l.precision) (hi : bits + 1 ≤ l.infinity)
    (hlo : (l.units bits + l.units (bits + 1)) * den < 2 * (num * 2 ^ l.unit))
    (hhi : 2 * (num * 2 ^ l.unit) < (l.units (bits + 1) + l.units (bits + 2)) * den) :
    l.nearest num den = bits + 1 := by
  have hden : 0 < den := by
    by_contra h
    simp [Nat.eq_zero_of_not_pos h] at hhi
  obtain ⟨m, e, h⟩ := l.exists_split bits
  have hpow := Nat.two_pow_pos e
  have hhalf := l.half_pos
  have hnext := l.units_succ bits
  rw [h.step_eq, h.units_eq] at hnext
  -- The fraction is no smaller than the magnitude in front of it.
  have hge : l.half * 2 ^ e ≤ num * 2 ^ l.unit / den ∨ e = 0 := by
    refine h.le_or_eq.imp_left fun hm => (Nat.le_div_iff_mul_le hden).mpr ?_
    have hle : l.half * 2 ^ e * den ≤ m * 2 ^ e * den :=
      Nat.mul_le_mul_right _ (Nat.mul_le_mul_right _ hm)
    rw [h.units_eq, hnext] at hlo
    nlinarith [Nat.mul_pos hpow hden]
  rw [l.units_succ (bits + 1)] at hhi
  rw [h.units_eq] at hlo
  rw [hnext] at hlo hhi
  obtain hs | ⟨hm, hs⟩ := h.succ
  case inl =>
    have hlt := hs.lt
    rw [hs.step_eq] at hhi
    rw [hs.bits_eq] at hi ⊢
    refine nearest_eq_add (exponentOf_eq hp hge ?_) (by linarith) (by linarith) hi
    rw [Nat.div_lt_iff_lt_mul hden]
    nlinarith [Nat.mul_pos hpow hden]
  case inr =>
    rw [hs.step_eq, pow_succ] at hhi
    by_cases hlt : num * 2 ^ l.unit < 2 * l.half * 2 ^ e * den
    case pos =>
      have hb : bits + 1 = e * l.half + 2 * l.half := by rw [hs.bits_eq]; ring
      rw [hb] at hi ⊢
      refine nearest_eq_add (exponentOf_eq hp hge ?_) (by rw [← hm]; linarith) (by linarith) hi
      rwa [Nat.div_lt_iff_lt_mul hden]
    case neg =>
      rw [hs.bits_eq] at hi ⊢
      rw [Nat.not_lt] at hlt
      have hm2 : (m + 1) * 2 ^ e = 2 * l.half * 2 ^ e := by rw [hm]
      refine nearest_eq_add (exponentOf_eq hp (.inl ?_) ?_) ?_ ?_ hi
      · rw [Nat.le_div_iff_mul_le hden, pow_succ]
        linarith
      · rw [Nat.div_lt_iff_lt_mul hden, pow_succ]
        nlinarith [Nat.mul_pos hpow hden]
      · rw [pow_succ]
        linarith
      · rw [pow_succ]
        nlinarith [Nat.mul_pos hpow hden]

-- What is below half a unit is rounded to zero.
theorem nearest_eq_zero (hp : 0 < l.precision) (h : 2 * (num * 2 ^ l.unit) < den) :
    l.nearest num den = 0 := by
  have hz : num * 2 ^ l.unit / den = 0 := Nat.div_eq_of_lt (by omega)
  have hr : roundDiv .toEven (num * 2 ^ l.unit) (den * 2 ^ 0) = 0 :=
    roundDiv_eq (by omega) (by omega)
  have he : l.exponentOf 0 = 0 := by
    rw [exponentOf, Nat.log2_zero]
    omega
  rw [nearest_def, hz, he, hr]
  simp

-- A stored magnitude is nearest to itself.
theorem nearest_units (hp : 0 < l.precision) (hi : bits ≤ l.infinity) :
    l.nearest (l.units bits) (2 ^ l.unit) = bits := by
  cases bits
  case zero => exact nearest_eq_zero hp (by simp [units_zero])
  case succ bits =>
    have hpow := Nat.two_pow_pos l.unit
    have hlo := l.units_strictMono (Nat.lt_succ_self bits)
    have hhi := l.units_strictMono (Nat.lt_succ_self (bits + 1))
    exact nearest_eq hp hi (by nlinarith) (by nlinarith)

theorem nearest_eq_infinity (hden : 0 < den) (h : n * den ≤ num * 2 ^ l.unit)
    (hi : l.infinity ≤ l.exponentOf n * l.half) : l.nearest num den = l.infinity := by
  have hn : n ≤ num * 2 ^ l.unit / den := (Nat.le_div_iff_mul_le hden).mpr h
  have he := exponentOf_le_exponentOf (l := l) hn
  rw [nearest_def]
  refine Nat.min_eq_right (Nat.le_trans hi (Nat.le_trans ?_ (Nat.le_add_right ..)))
  exact Nat.mul_le_mul_right _ he

end Rounding

end Layout

end PagePrep
