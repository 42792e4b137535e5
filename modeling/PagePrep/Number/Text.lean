import PagePrep.Number.Shortest

namespace PagePrep

-- How a kind of text writes a floating-point number.
structure NumberStyle where
  -- Of two texts of the same length that are as close to the number as each other, the one written.
  tie        : Tie
  -- The exponents of the leading digit for which the number is written without an exponent.
  positional : Int → Bool
  -- A whole number ends in `.0`.
  marksWhole : Bool
  nan        : String
  -- Given whether it is negative.
  infinity   : Bool → String

namespace NumberStyle

def signedInf (negative : Bool) : String :=
  if negative then "-inf" else "inf"

-- Messages for people never use an exponent.
def message : NumberStyle := ⟨.up, fun _ => true, false, "NaN", signedInf⟩

-- A configuration file keeps numbers with and without a fraction apart.
def toml : NumberStyle := ⟨.up, fun _ => true, true, "nan", signedInf⟩

def jsonSingle : NumberStyle :=
  ⟨.toEven, fun e => -6 ≤ e ∧ e ≤ 12, true, "null", fun _ => "null"⟩

def jsonDouble : NumberStyle :=
  ⟨.toEven, fun e => -5 ≤ e ∧ e ≤ 15, true, "null", fun _ => "null"⟩

def zeros (n : Nat) : String :=
  String.ofList (List.replicate n '0')

-- A number without an exponent: digits, a point, digits.
def plain (style : NumberStyle) (d : Digits) : String :=
  let text := toString d.digits
  if 0 ≤ d.exponent then
    text ++ zeros d.exponent.toNat ++ if style.marksWhole then ".0" else ""
  else
    let places := (-d.exponent).toNat
    let padded := zeros (places + 1 - text.length) ++ text
    let whole := padded.length - places
    String.ofList (padded.toList.take whole) ++ "." ++ String.ofList (padded.toList.drop whole)

-- One digit before the point, and the exponent always with its sign.
def scientific (d : Digits) : String :=
  let text := (toString d.digits).toList
  let rest := String.ofList (text.drop 1)
  let fraction := if rest.isEmpty then "" else "." ++ rest
  let sign := if d.leading < 0 then "-" else "+"
  String.ofList (text.take 1) ++ fraction ++ "e" ++ sign ++ toString d.leading.natAbs

def magnitude (style : NumberStyle) (l : Layout) (bits : Nat) : String :=
  if bits = 0 then
    if style.marksWhole then "0.0" else "0"
  else
    let d := l.shortest style.tie bits
    if style.positional d.leading then style.plain d else scientific d

def write (style : NumberStyle) (l : Layout) (negative : Bool) (bits : Nat) : String :=
  if l.infinity < bits then
    style.nan
  else if bits = l.infinity then
    style.infinity negative
  else if negative then
    "-" ++ style.magnitude l bits
  else
    style.magnitude l bits

def single (style : NumberStyle) (x : Float32) : String :=
  let (negative, bits) := singleParts x
  style.write .single negative bits

def double (style : NumberStyle) (x : Float) : String :=
  let (negative, bits) := doubleParts x
  style.write .double negative bits

end NumberStyle

end PagePrep
