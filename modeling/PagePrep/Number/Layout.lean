namespace PagePrep

-- Which of its two neighbors a number goes to that is halfway between them.
inductive Tie where
  | toEven
  | up
deriving DecidableEq, Repr

-- The quotient rounded to the nearest whole number.
def roundDiv (tie : Tie) (num den : Nat) : Nat :=
  let q := num / den
  let r := 2 * (num % den)
  if r < den then q
  else if den < r then q + 1
  else
    match tie with
    | .toEven => q + q % 2
    | .up     => q + 1

-- How a binary floating-point format stores a magnitude. The smallest positive one, its unit, is
-- `2 ^ -unit`. Read as a number, the stored bits grow with the magnitude.
structure Layout where
  -- The number of significant bits.
  precision : Nat
  unit      : Nat
  -- The bits of infinity, which are also those of all magnitudes that are too large.
  infinity  : Nat
  -- The bit that is set for a number with a minus.
  signBit   : Nat
  -- As many decimal digits always tell two magnitudes apart.
  digits    : Nat

namespace Layout

def single : Layout := ⟨24, 149, 0x7f800000, 0x80000000, 9⟩

def double : Layout := ⟨53, 1074, 0x7ff0000000000000, 0x8000000000000000, 17⟩

-- Significand and exponent: the magnitude is `m * 2 ^ e` units.
def split (l : Layout) (bits : Nat) : Nat × Nat :=
  let half := 1 <<< (l.precision - 1)
  let e := bits / half
  let m := bits % half
  if e = 0 then (m, 0) else (half + m, e - 1)

-- A finite magnitude as a fraction.
def fraction (l : Layout) (bits : Nat) : Nat × Nat :=
  let (m, e) := l.split bits
  (m <<< e, 1 <<< l.unit)

-- The magnitude nearest to a fraction, a tie to the even one. The significand is rounded at the
-- exponent that leaves it `precision` bits; if rounding carries into one more bit, the sum is that
-- of the next exponent.
def nearest (l : Layout) (num den : Nat) : Nat :=
  let units := num <<< l.unit
  let e := (units / den).log2 + 1 - l.precision
  min (e <<< (l.precision - 1) + roundDiv .toEven units (den <<< e)) l.infinity

def withSign (l : Layout) (negative : Bool) (bits : Nat) : Nat :=
  bits + if negative then l.signBit else 0

-- Whether there is a minus, and the bits without it.
def parts (l : Layout) (bits : Nat) : Bool × Nat :=
  (l.signBit ≤ bits, bits % l.signBit)

end Layout

-- A decimal number `digits * 10 ^ exponent` with its sign, which zero has as well.
structure Decimal where
  negative : Bool
  digits   : Nat
  exponent : Int
deriving DecidableEq, Repr

def digitCount (n : Nat) : Nat :=
  if n < 10 then 1 else digitCount (n / 10) + 1

namespace Decimal

-- A number of either format is below `10 ^ 400` and, but for zero, above `10 ^ -400`: past these
-- bounds the power of ten need not be worked out.
def magnitude (l : Layout) (d : Decimal) : Nat :=
  let size := digitCount d.digits + d.exponent
  if d.digits = 0 ∨ size < -400 then 0
  else if 400 < size then l.infinity
  else l.nearest (d.digits * Nat.pow 10 d.exponent.toNat) (Nat.pow 10 (-d.exponent).toNat)

def toFloat (d : Decimal) : Float :=
  .ofBits (.ofNat (Layout.double.withSign d.negative (d.magnitude .double)))

def toFloat32 (d : Decimal) : Float32 :=
  .ofBits (.ofNat (Layout.single.withSign d.negative (d.magnitude .single)))

def ofInt (n : Int) : Decimal :=
  ⟨n < 0, n.natAbs, 0⟩

end Decimal

-- A stored number taken apart: its sign and its bits without the sign.
def singleParts (x : Float32) : Bool × Nat :=
  Layout.single.parts x.toBits.toNat

def doubleParts (x : Float) : Bool × Nat :=
  Layout.double.parts x.toBits.toNat

-- The same number in the wider format.
def widen (x : Float32) : Float :=
  let (negative, bits) := singleParts x
  if x.isNaN then
    0 / 0
  else
    let magnitude :=
      if bits = Layout.single.infinity then
        Layout.double.infinity
      else
        let (num, den) := Layout.single.fraction bits
        Layout.double.nearest num den
    .ofBits (.ofNat (Layout.double.withSign negative magnitude))

-- The nearest number of the narrower format.
def narrow (x : Float) : Float32 :=
  let (negative, bits) := doubleParts x
  if x.isNaN then
    0 / 0
  else
    let magnitude :=
      if bits = Layout.double.infinity then
        Layout.single.infinity
      else
        let (num, den) := Layout.double.fraction bits
        Layout.single.nearest num den
    .ofBits (.ofNat (Layout.single.withSign negative magnitude))

end PagePrep
