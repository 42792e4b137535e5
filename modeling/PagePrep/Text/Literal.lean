import PagePrep.Number.Layout
import PagePrep.Text.Value

namespace PagePrep

-- Numbers that are written by themselves, with nothing around them.
namespace Literal

open Scan

-- The number that digits to the end of the text give.
def digitsToEnd? (cs : List Char) : Option Nat :=
  match digits? cs with
  | some (ds, []) => some (decimalValue ds)
  | _             => none

def nat? (s : String) : Option Nat :=
  match s.toList with
  | '+' :: cs => digitsToEnd? cs
  | cs        => digitsToEnd? cs

def int? (s : String) : Option Int := do
  let (negative, cs) := sign s.toList
  let n ← digitsToEnd? cs
  return if negative then -n else n

def natBelow? (bound : Nat) (s : String) : Option Nat :=
  match nat? s with
  | some n => if n < bound then some n else none
  | none   => none

-- Unlike `natBelow?` this knows a minus in front of zero.
def intBelow? (bound : Nat) (s : String) : Option Nat :=
  match int? s with
  | some n => if 0 ≤ n ∧ n < bound then some n.toNat else none
  | none   => none

def exponent? (cs : List Char) : Option Int := do
  match cs with
  | []                          => return 0
  | 'e' :: rest | 'E' :: rest   =>
    let (negative, rest) := sign rest
    let n ← digitsToEnd? rest
    return if negative then -n else n
  | _                           => none

-- Digits with a point somewhere and an exponent behind them, either of which may be missing.
def decimal? (negative : Bool) (cs : List Char) : Option Decimal := do
  let (whole, rest) := cs.span Char.isDigit
  let (places, rest) := match rest with
    | '.' :: rest => rest.span Char.isDigit
    | _           => ([], rest)
  guard (!whole.isEmpty ∨ !places.isEmpty)
  let exponent ← exponent? rest
  return ⟨negative, decimalValue (whole ++ places), exponent - places.length⟩

def special? (negative : Bool) (word : String) : Option Float32 :=
  match word with
  | "inf" | "infinity" => some (if negative then -(1 / 0) else 1 / 0)
  | "nan"              => some (0 / 0)
  | _                  => none

def single? (s : String) : Option Float32 :=
  let (negative, cs) := sign s.toList
  ((decimal? negative cs).map Decimal.toFloat32).or (special? negative (String.ofList cs).toLower)

end Literal

end PagePrep
