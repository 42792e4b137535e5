import PagePrep.Number.Layout

namespace PagePrep

-- The exponent of the leading digit: `10 ^ e ≤ num / den < 10 ^ (e + 1)`.
def leadingExponent (num den : Nat) : Int :=
  if den ≤ num then digitCount (num / den) - 1 else -digitCount ((den - 1) / num)

-- A positive number `digits * 10 ^ exponent`.
structure Digits where
  digits   : Nat
  exponent : Int
deriving DecidableEq, Repr

namespace Digits

def magnitude (l : Layout) (d : Digits) : Nat :=
  Decimal.magnitude l ⟨false, d.digits, d.exponent⟩

-- The exponent of the leading digit.
def leading (d : Digits) : Int :=
  digitCount d.digits - 1 + d.exponent

def trim (fuel : Nat) (d : Digits) : Digits :=
  match fuel with
  | 0        => d
  | fuel + 1 =>
    if d.digits % 10 = 0 ∧ d.digits ≠ 0 then trim fuel ⟨d.digits / 10, d.exponent + 1⟩ else d

end Digits

-- The point of the grid of step `10 ^ k` that is nearest to the number among those that read back
-- as it. Only the two points around the number can be.
def Layout.onGrid (l : Layout) (tie : Tie) (bits : Nat) (k : Int) : Option Digits :=
  let (num, den) := l.fraction bits
  let num := num * Nat.pow 10 (-k).toNat
  let den := den * Nat.pow 10 k.toNat
  let below : Digits := ⟨num / den, k⟩
  let above : Digits := ⟨num / den + 1, k⟩
  let pick := if roundDiv tie num den = below.digits then [below, above] else [above, below]
  pick.find? fun d => d.magnitude l = bits

-- The fewest digits that read back as the number; of the numbers with so many digits the nearest.
def Layout.shortest (l : Layout) (tie : Tie) (bits : Nat) : Digits :=
  let (num, den) := l.fraction bits
  let top := leadingExponent num den
  let found := (List.range l.digits).findSome? fun (n : Nat) => l.onGrid tie bits (top - n)
  (found.getD ⟨num / den, 0⟩).trim l.digits

end PagePrep
