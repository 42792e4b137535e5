import PagePrep.Number.Layout
import PagePrep.Text.Value

namespace PagePrep.Toml

open Scan

def isBlank (c : Char) : Bool :=
  c = ' ' || c = '\t'

def skipBlanks (cs : List Char) : List Char :=
  cs.dropWhile isBlank

def newline? : List Char → Option (List Char)
  | '\n' :: rest         => some rest
  | '\r' :: '\n' :: rest => some rest
  | _                    => none

-- What may stand in a comment and, but for its quotes, in a string of one line.
def isPrintable (c : Char) : Bool :=
  c = '\t' || (' ' ≤ c && c ≠ '\x7f')

def skipComment (cs : List Char) : List Char :=
  match cs with
  | '#' :: rest => rest.dropWhile isPrintable
  | _           => cs

-- Blanks and a comment up to the end of the line.
def lineEnd? (cs : List Char) : Option (List Char) :=
  match skipComment (skipBlanks cs) with
  | []   => some []
  | rest => newline? rest

-- Blanks, line ends and comments.
def skipLines : (fuel : Nat) → List Char → List Char
  | 0,        cs => cs
  | fuel + 1, cs =>
    let rest := skipBlanks cs
    match newline? (skipComment rest) with
    | some rest => skipLines fuel rest
    | none      => rest

-- The character with the number that the next `count` hexadecimal digits give.
def unicode? (count : Nat) (cs : List Char) : Option (Char × List Char) :=
  let ds := cs.take count
  if ds.length = count ∧ ds.all isHexDigit then
    (char? (digitsValue 16 ds)).map fun c => (c, cs.drop count)
  else
    none

def escape? : List Char → Option (Char × List Char)
  | '"' :: rest  => some ('"', rest)
  | '\\' :: rest => some ('\\', rest)
  | 'b' :: rest  => some ('\x08', rest)
  | 'f' :: rest  => some ('\x0c', rest)
  | 'n' :: rest  => some ('\n', rest)
  | 'r' :: rest  => some ('\r', rest)
  | 't' :: rest  => some ('\t', rest)
  | 'u' :: rest  => unicode? 4 rest
  | 'U' :: rest  => unicode? 8 rest
  | _            => none

def basic? : (fuel : Nat) → (done cs : List Char) → Option (String × List Char)
  | 0,        _,    _  => none
  | fuel + 1, done, cs =>
    match cs with
    | '"' :: rest  => some (.ofList done.reverse, rest)
    | '\\' :: rest =>
      match escape? rest with
      | some (c, rest) => basic? fuel (c :: done) rest
      | none           => none
    | c :: rest    => if isPrintable c then basic? fuel (c :: done) rest else none
    | []           => none

def literal? (cs : List Char) : Option (String × List Char) :=
  match cs.span fun c => isPrintable c && c ≠ '\'' with
  | (body, '\'' :: rest) => some (.ofList body, rest)
  | _                    => none

-- The number of quotes in front, five at most. Three close a string of several lines, and two more
-- of them may belong to its text.
def quoteRun (quote : Char) (cs : List Char) : Nat :=
  ((cs.take 5).takeWhile (· = quote)).length

-- A backslash at the end of a line, behind which blanks and line ends are skipped.
def foldedLine? (cs : List Char) : Option (List Char) :=
  (newline? (skipBlanks cs)).map fun rest => skipAll rest.length rest
where
  skipAll : Nat → List Char → List Char
    | 0,        cs => cs
    | fuel + 1, cs =>
      match newline? (skipBlanks cs) with
      | some rest => skipAll fuel rest
      | none      => skipBlanks cs

-- The rest of a string of several lines. With `escapes` a backslash has its meaning.
def multiline? (quote : Char) (escapes : Bool) :
    (fuel : Nat) → (done cs : List Char) → Option (String × List Char)
  | 0,        _,    _  => none
  | fuel + 1, done, cs =>
    let run := quoteRun quote cs
    if 3 ≤ run then
      some (.ofList (List.replicate (run - 3) quote ++ done).reverse, cs.drop run)
    else
      match newline? cs with
      | some rest => multiline? quote escapes fuel ('\n' :: done) rest
      | none      =>
        match cs with
        | []        => none
        | c :: rest =>
          if escapes ∧ c = '\\' then
            match foldedLine? rest with
            | some rest => multiline? quote escapes fuel done rest
            | none      =>
              match escape? rest with
              | some (c, rest) => multiline? quote escapes fuel (c :: done) rest
              | none           => none
          else if isPrintable c then
            multiline? quote escapes fuel (c :: done) rest
          else
            none

-- A line end right behind the opening quotes is not part of the text.
def openMultiline (cs : List Char) : List Char :=
  (newline? cs).getD cs

def string? (cs : List Char) : Option (String × List Char) :=
  match cs with
  | '"' :: '"' :: '"' :: rest    => multiline? '"' true (rest.length + 1) [] (openMultiline rest)
  | '"' :: rest                  => basic? (rest.length + 1) [] rest
  | '\'' :: '\'' :: '\'' :: rest => multiline? '\'' false (rest.length + 1) [] (openMultiline rest)
  | '\'' :: rest                 => literal? rest
  | _                            => none

-- Digits, with single underscores between them.
def grouped? (isDigit : Char → Bool) (cs : List Char) : Option (List Char × List Char) :=
  match cs with
  | c :: rest => if isDigit c then go rest.length [c] rest else none
  | []        => none
where
  go : Nat → (done cs : List Char) → Option (List Char × List Char)
    | 0,        done, cs => some (done.reverse, cs)
    | fuel + 1, done, cs =>
      match cs with
      | '_' :: c :: rest => if isDigit c then go fuel (c :: done) rest else none
      | ['_']            => none
      | c :: rest        => if isDigit c then go fuel (c :: done) rest else some (done.reverse, cs)
      | []               => some (done.reverse, cs)

-- A decimal integer has no zero in front: behind one, other digits are not read any more.
def leadingInt? (cs : List Char) : Option (List Char × List Char) :=
  match cs with
  | '0' :: rest => some (['0'], rest)
  | _           => grouped? Char.isDigit cs

def fraction? (cs : List Char) : Option (List Char × List Char) :=
  match cs with
  | '.' :: rest => grouped? Char.isDigit rest
  | _           => some ([], cs)

def exponent? (cs : List Char) : Option (Option Int × List Char) :=
  match cs with
  | 'e' :: rest | 'E' :: rest => do
    let (negative, rest) := sign rest
    let (ds, rest) ← grouped? Char.isDigit rest
    let n : Int := decimalValue ds
    return (some (if negative then -n else n), rest)
  | _ => some (none, cs)

-- A number that is too large is refused, unless it is negative.
def float? (d : Decimal) : Option Value :=
  let x := d.toFloat
  if x.isInf ∧ !d.negative then none else some (.float x)

def int? (n : Int) : Option Value :=
  if -Value.signedBound ≤ n ∧ n < Value.signedBound then some (.int n) else none

def special? (negative : Bool) (cs : List Char) : Option (Value × List Char) :=
  match word? ['i', 'n', 'f'] cs, word? ['n', 'a', 'n'] cs with
  | some rest, _    => some (.float (if negative then -(1 / 0) else 1 / 0), rest)
  | _, some rest    => some (.float (0 / 0), rest)
  | none, none      => none

def radix? (base : Nat) (isDigit : Char → Bool) (cs : List Char) : Option (Value × List Char) := do
  let (ds, rest) ← grouped? isDigit cs
  let value ← int? (digitsValue base ds)
  return (value, rest)

def decimal? (cs : List Char) : Option (Value × List Char) := do
  let (negative, rest) := sign cs
  match special? negative rest with
  | some result => return result
  | none        =>
    let (ds, rest) ← leadingInt? rest
    let (places, rest) ← fraction? rest
    let (exponent, rest) ← exponent? rest
    let value ←
      if places.isEmpty ∧ exponent.isNone then
        int? (if negative then -decimalValue ds else decimalValue ds)
      else
        float? ⟨negative, decimalValue (ds ++ places), exponent.getD 0 - places.length⟩
    return (value, rest)

def number? (cs : List Char) : Option (Value × List Char) :=
  match cs with
  | '0' :: 'x' :: rest => radix? 16 isHexDigit rest
  | '0' :: 'o' :: rest => radix? 8 (fun c => '0' ≤ c ∧ c ≤ '7') rest
  | '0' :: 'b' :: rest => radix? 2 (fun c => c = '0' ∨ c = '1') rest
  | _                  => decimal? cs

-- The value of exactly so many digits, if it lies between the bounds.
def fixed? (count lo hi : Nat) (cs : List Char) : Option (Nat × List Char) :=
  let ds := cs.take count
  let n := decimalValue ds
  if ds.length = count ∧ ds.all Char.isDigit ∧ lo ≤ n ∧ n ≤ hi then
    some (n, cs.drop count)
  else
    none

def monthDays (year month : Nat) : Nat :=
  if month = 2 then
    if year % 4 = 0 ∧ (year % 100 ≠ 0 ∨ year % 400 = 0) then 29 else 28
  else if month ∈ [4, 6, 9, 11] then 30
  else 31

def date? (cs : List Char) : Option (List Char) := do
  let (year, rest) ← fixed? 4 0 9999 cs
  let rest ← word? ['-'] rest
  let (month, rest) ← fixed? 2 1 12 rest
  let rest ← word? ['-'] rest
  let (_, rest) ← fixed? 2 1 (monthDays year month) rest
  return rest

-- A minute may have a leap second.
def time? (cs : List Char) : Option (List Char) := do
  let (_, rest) ← fixed? 2 0 23 cs
  let rest ← word? [':'] rest
  let (_, rest) ← fixed? 2 0 59 rest
  let rest ← word? [':'] rest
  let (_, rest) ← fixed? 2 0 60 rest
  match rest with
  | '.' :: places => return ((digits? places).map (·.2)).getD rest
  | _             => return rest

def timeOffset? (cs : List Char) : Option (List Char) := do
  match cs with
  | 'Z' :: rest | 'z' :: rest => return rest
  | '+' :: rest | '-' :: rest =>
    let (_, rest) ← fixed? 2 0 23 rest
    let rest ← word? [':'] rest
    let (_, rest) ← fixed? 2 0 59 rest
    return rest
  | _ => none

-- A date, a time, or a date and a time with or without an offset.
def moment? (cs : List Char) : Option (List Char) :=
  match date? cs with
  | none      => time? cs
  | some rest =>
    match rest with
    | c :: behind =>
      if c = 'T' ∨ c = 't' ∨ c = ' ' then
        match time? behind with
        | some behind => some ((timeOffset? behind).getD behind)
        | none        => some rest
      else
        some rest
    | [] => some rest

def scalar? (cs : List Char) : Option (Value × List Char) :=
  match cs with
  | '"' :: _ | '\'' :: _ => (string? cs).map fun (s, rest) => (.string s, rest)
  | 't' :: rest          => (word? ['r', 'u', 'e'] rest).map fun rest => (.bool true, rest)
  | 'f' :: rest          => (word? ['a', 'l', 's', 'e'] rest).map fun rest => (.bool false, rest)
  | _                    =>
    match moment? cs with
    | some rest => some (.moment, rest)
    | none      => number? cs

end PagePrep.Toml
