import Mathlib.Tactic.Common

-- Sums, differences, products and quotients of words, taken in the natural numbers. There is no
-- result where it does not fit into its word, and none of a division by zero.

namespace PagePrep

namespace Exact

def word? (n : Nat) : Option UInt32 :=
  if n < UInt32.size then some (.ofNat n) else none

def word64? (n : Nat) : Option UInt64 :=
  if n < UInt64.size then some (.ofNat n) else none

def add? (a b : UInt32) : Option UInt32 :=
  word? (a.toNat + b.toNat)

def sub? (a b : UInt32) : Option UInt32 :=
  if b.toNat ≤ a.toNat then word? (a.toNat - b.toNat) else none

def mul? (a b : UInt32) : Option UInt32 :=
  word? (a.toNat * b.toNat)

def div? (a b : UInt32) : Option UInt32 :=
  if b.toNat = 0 then none else word? (a.toNat / b.toNat)

section Words

variable {a b : UInt32}

theorem word?_toNat : word? a.toNat = some a := by
  rw [word?, if_pos a.toNat_lt, UInt32.ofNat_toNat]

theorem word64?_toNat {n : UInt64} : word64? n.toNat = some n := by
  rw [word64?, if_pos n.toNat_lt, UInt64.ofNat_toNat]

theorem add?_eq_some (h : a.toNat + b.toNat < UInt32.size) : add? a b = some (a + b) := by
  rw [add?, ←word?_toNat (a := a + b), UInt32.toNat_add, Nat.mod_eq_of_lt h]

theorem add?_one (h : a.toNat + 1 < UInt32.size) : add? a 1 = some (a + 1) :=
  add?_eq_some h

theorem sub?_eq_some (h : b.toNat ≤ a.toNat) : sub? a b = some (a - b) := by
  rw [sub?, if_pos h, ←UInt32.toNat_sub_of_le _ _ (UInt32.le_iff_toNat_le.mpr h), word?_toNat]

theorem mul?_eq_some (h : a.toNat * b.toNat < UInt32.size) : mul? a b = some (a * b) := by
  rw [mul?, ←word?_toNat (a := a * b), UInt32.toNat_mul, Nat.mod_eq_of_lt h]

theorem div?_eq_some (h : 0 < b.toNat) : div? a b = some (a / b) := by
  rw [div?, if_neg (Nat.ne_of_gt h), ←UInt32.toNat_div, word?_toNat]

theorem div?_max_one : div? a (max b 1) = some (a / max b 1) :=
  div?_eq_some <| UInt32.toNat_max b 1 ▸ Nat.le_max_right ..

end Words

end Exact

end PagePrep
