namespace PagePrep

-- What a text in JSON or TOML says.
inductive Value where
  | null
  | bool (b : Bool)
  | int (n : Int)
  | float (x : Float)
  | string (s : String)
  -- A date, a time, or both. Only that it is one matters.
  | moment
  | array (items : List Value)
  | table (entries : List (String × Value))

namespace Value

-- An integer of 64 bits with a sign is below this bound, and no less than its negative.
def signedBound : Nat :=
  0x8000000000000000

-- Of entries with one name the last counts.
def get? (entries : List (String × Value)) (name : String) : Option Value :=
  entries.reverse.lookup name

end Value

-- Scanning works on the characters that are left of a text.
namespace Scan

def digitsValue (base : Nat) (ds : List Char) : Nat :=
  ds.foldl (fun n c => n * base + value c) 0
where
  value (c : Char) : Nat :=
    if c.isDigit then c.toNat - '0'.toNat
    else if c.isLower then c.toNat - 'a'.toNat + 10
    else c.toNat - 'A'.toNat + 10

def isHexDigit (c : Char) : Bool :=
  c.isDigit || ('a' ≤ c && c ≤ 'f') || ('A' ≤ c && c ≤ 'F')

def decimalValue (ds : List Char) : Nat :=
  digitsValue 10 ds

-- At least one digit.
def digits? (cs : List Char) : Option (List Char × List Char) :=
  match cs.span Char.isDigit with
  | ([], _)    => none
  | (ds, rest) => some (ds, rest)

-- A sign that need not be there: whether it is a minus.
def sign (cs : List Char) : Bool × List Char :=
  match cs with
  | '-' :: rest => (true, rest)
  | '+' :: rest => (false, rest)
  | _           => (false, cs)

def word? (word : List Char) (cs : List Char) : Option (List Char) :=
  if word.isPrefixOf cs then some (cs.drop word.length) else none

-- The character with a number, if there is one.
def char? (n : Nat) : Option Char :=
  if n.isValidChar then some (.ofNat n) else none

end Scan

end PagePrep
