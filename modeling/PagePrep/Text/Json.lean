import PagePrep.Number.Layout
import PagePrep.Text.Value

namespace PagePrep.Json

open Scan

def isBlank (c : Char) : Bool :=
  c = ' ' || c = '\t' || c = '\n' || c = '\r'

def skipBlanks (cs : List Char) : List Char :=
  cs.dropWhile isBlank

def hex4? : List Char → Option (Nat × List Char)
  | a :: b :: c :: d :: rest =>
    if [a, b, c, d].all isHexDigit then some (digitsValue 16 [a, b, c, d], rest) else none
  | _ => none

-- What follows a backslash and a `u`. A character past the first 65536 takes two escapes.
def unicode? (cs : List Char) : Option (Char × List Char) := do
  let (n, rest) ← hex4? cs
  if 0xd800 ≤ n ∧ n < 0xdc00 then
    let rest ← word? ['\\', 'u'] rest
    let (m, rest) ← hex4? rest
    if 0xdc00 ≤ m ∧ m < 0xe000 then
      let c ← char? (0x10000 + (n - 0xd800) * 1024 + (m - 0xdc00))
      return (c, rest)
    else
      none
  else
    let c ← char? n
    return (c, rest)

def escape? : List Char → Option (Char × List Char)
  | '"' :: rest  => some ('"', rest)
  | '\\' :: rest => some ('\\', rest)
  | '/' :: rest  => some ('/', rest)
  | 'b' :: rest  => some ('\x08', rest)
  | 'f' :: rest  => some ('\x0c', rest)
  | 'n' :: rest  => some ('\n', rest)
  | 'r' :: rest  => some ('\r', rest)
  | 't' :: rest  => some ('\t', rest)
  | 'u' :: rest  => unicode? rest
  | _            => none

-- The rest of a string up to its closing quote. `done` holds its characters so far, the last first.
def string? : (fuel : Nat) → (done cs : List Char) → Option (String × List Char)
  | 0,        _,    _  => none
  | fuel + 1, done, cs =>
    match cs with
    | '"' :: rest  => some (.ofList done.reverse, rest)
    | '\\' :: rest =>
      match escape? rest with
      | some (c, rest) => string? fuel (c :: done) rest
      | none           => none
    | c :: rest    => if c < ' ' then none else string? fuel (c :: done) rest
    | []           => none

def fraction? (cs : List Char) : Option (List Char × List Char) :=
  match cs with
  | '.' :: rest => digits? rest
  | _           => some ([], cs)

def exponent? (cs : List Char) : Option (Option Int × List Char) :=
  match cs with
  | 'e' :: rest | 'E' :: rest => do
    let (negative, rest) := sign rest
    let (ds, rest) ← digits? rest
    let n : Int := decimalValue ds
    return (some (if negative then -n else n), rest)
  | _ => some (none, cs)

def float? (d : Decimal) : Option Value :=
  let x := d.toFloat
  if x.isFinite then some (.float x) else none

-- A whole number is an integer if it is one of 64 bits, and otherwise a floating-point number, as
-- is negative zero.
def whole? (negative : Bool) (n : Nat) : Option Value :=
  let fits := if negative then 0 < n ∧ n ≤ Value.signedBound else n < UInt64.size
  if fits then
    some (.int (if negative then -n else n))
  else
    float? ⟨negative, n, 0⟩

def number? (cs : List Char) : Option (Value × List Char) := do
  let (negative, rest) := match cs with
    | '-' :: rest => (true, rest)
    | _           => (false, cs)
  let (ds, rest) ← digits? rest
  if ds.head? = some '0' ∧ 1 < ds.length then
    none
  else
    let (places, rest) ← fraction? rest
    let (exponent, rest) ← exponent? rest
    let value ←
      if places.isEmpty ∧ exponent.isNone then
        whole? negative (decimalValue ds)
      else
        float? ⟨negative, decimalValue (ds ++ places), exponent.getD 0 - places.length⟩
    return (value, rest)

mutual

-- A value, after the blanks in front of it.
def value? : (fuel : Nat) → List Char → Option (Value × List Char)
  | 0,        _  => none
  | fuel + 1, cs =>
    match skipBlanks cs with
    | '"' :: rest => (string? (rest.length + 1) [] rest).map fun (s, rest) => (.string s, rest)
    | '[' :: rest =>
      match skipBlanks rest with
      | ']' :: rest => some (.array [], rest)
      | rest        => (items? fuel rest).map fun (items, rest) => (.array items, rest)
    | '{' :: rest =>
      match skipBlanks rest with
      | '}' :: rest => some (.table [], rest)
      | rest        => (entries? fuel rest).map fun (entries, rest) => (.table entries, rest)
    | 't' :: rest => (word? ['r', 'u', 'e'] rest).map fun rest => (.bool true, rest)
    | 'f' :: rest => (word? ['a', 'l', 's', 'e'] rest).map fun rest => (.bool false, rest)
    | 'n' :: rest => (word? ['u', 'l', 'l'] rest).map fun rest => (.null, rest)
    | rest        => number? rest

-- The items of an array from the next one on, and its closing bracket.
def items? : (fuel : Nat) → List Char → Option (List Value × List Char)
  | 0,        _  => none
  | fuel + 1, cs => do
    let (item, rest) ← value? fuel cs
    match skipBlanks rest with
    | ',' :: rest => (items? fuel rest).map fun (items, rest) => (item :: items, rest)
    | ']' :: rest => return ([item], rest)
    | _           => none

def entries? : (fuel : Nat) → List Char → Option (List (String × Value) × List Char)
  | 0,        _  => none
  | fuel + 1, cs => do
    let rest ← word? ['"'] (skipBlanks cs)
    let (name, rest) ← string? (rest.length + 1) [] rest
    let rest ← word? [':'] (skipBlanks rest)
    let (value, rest) ← value? fuel rest
    match skipBlanks rest with
    | ',' :: rest =>
      (entries? fuel rest).map fun (entries, rest) => ((name, value) :: entries, rest)
    | '}' :: rest => return ([(name, value)], rest)
    | _           => none

end

-- The value that a whole text says.
def parse? (text : String) : Option Value :=
  let cs := text.toList
  match value? (cs.length + 1) cs with
  | some (value, rest) => if (skipBlanks rest).isEmpty then some value else none
  | none               => none

def escaped (c : Char) : List Char :=
  match c with
  | '"'    => ['\\', '"']
  | '\\'   => ['\\', '\\']
  | '\n'   => ['\\', 'n']
  | '\r'   => ['\\', 'r']
  | '\t'   => ['\\', 't']
  | '\x08' => ['\\', 'b']
  | '\x0c' => ['\\', 'f']
  | c      =>
    if c < ' ' then
      ['\\', 'u', '0', '0', Nat.digitChar (c.toNat / 16), Nat.digitChar (c.toNat % 16)]
    else
      [c]

def quote (s : String) : String :=
  "\"" ++ String.ofList (s.toList.flatMap escaped) ++ "\""

end PagePrep.Json
