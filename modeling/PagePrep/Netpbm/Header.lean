import PagePrep.Bytes
import PagePrep.Gray.Picture

namespace PagePrep.Netpbm

-- How the samples of a picture are written.
inductive Encoding where
  | ascii
  | binary
deriving DecidableEq, Repr

-- How large a sample is. A bilevel one is a byte that is 0 for black or 1 for white.
inductive SampleSize where
  | bilevel
  | byte
  | word
deriving DecidableEq, Repr

namespace SampleSize

def bytes : SampleSize → Nat
  | bilevel | byte => 1
  | word           => 2

-- The sample of full light.
def top : SampleSize → Nat
  | bilevel | byte => 255
  | word           => 65535

-- The smallest size for samples from 0 to `maxval`.
def fit? (maxval : Nat) : Option SampleSize :=
  if maxval ≤ byte.top then some byte else if maxval ≤ word.top then some word else none

end SampleSize

-- What stands in front of the samples.
inductive Header where
  | bitmap (encoding : Encoding) (width height : UInt32)
  -- Samples should go from 0 to `maxval`, but their size need not be that of `maxval`.
  | samples (encoding : Encoding) (channels : Channels) (size : SampleSize)
      (width height : UInt32) (maxval : Nat)
deriving DecidableEq, Repr

def isSpace (b : UInt8) : Bool :=
  b = 0x20 || (0x09 ≤ b && b ≤ 0x0d)

def isLineEnd (b : UInt8) : Bool :=
  b = 0x0a || b = 0x0d

-- The next word of a header, and what follows the space behind it. A comment begins at any `#` and
-- is cut out with the end of its line.
def word? : (comment : Bool) → (done : Bytes) → Bytes → Option (Bytes × Bytes)
  | _,     done, []        => if done.isEmpty then none else some (done.reverse, [])
  | true,  done, b :: rest => word? (!isLineEnd b) done rest
  | false, done, b :: rest =>
    if b = 0x23 then
      word? true done rest
    else if isSpace b then
      if done.isEmpty then word? false [] rest else some (done.reverse, rest)
    else if 0x80 ≤ b then
      none
    else
      word? false (b :: done) rest

def isDigit (b : UInt8) : Bool :=
  0x30 ≤ b && b ≤ 0x39

def digitsValue (ds : Bytes) : Nat :=
  ds.foldl (fun n b => n * 10 + (b.toNat - 0x30)) 0

-- A number below the bound, of digits alone.
def number? (bound : Nat) (ds : Bytes) : Option Nat :=
  let n := digitsValue ds
  if !ds.isEmpty ∧ ds.all isDigit ∧ n < bound then some n else none

-- A number that may have a plus sign.
def signedNumber? (bound : Nat) : Bytes → Option Nat
  | 0x2b :: ds => number? bound ds
  | ds         => number? bound ds

def headerNumber? (bytes : Bytes) : Option (UInt32 × Bytes) := do
  let (word, rest) ← word? false [] bytes
  let n ← number? UInt32.size word
  return (.ofNat n, rest)

def bitmapHeader? (encoding : Encoding) (bytes : Bytes) : Option (Header × Bytes) := do
  let (width, rest) ← headerNumber? bytes
  let (height, rest) ← headerNumber? rest
  return (.bitmap encoding width height, rest)

def samplesHeader? (encoding : Encoding) (channels : Channels) (bytes : Bytes) :
    Option (Header × Bytes) := do
  let (width, rest) ← headerNumber? bytes
  let (height, rest) ← headerNumber? rest
  let (maxval, rest) ← headerNumber? rest
  guard (0 < maxval)
  let size ← SampleSize.fit? maxval.toNat
  return (.samples encoding channels size width height maxval.toNat, rest)

-- The fields of the header of an arbitrary map, each on its own line.
structure Fields where
  width     : Option Nat    := none
  height    : Option Nat    := none
  depth     : Option Nat    := none
  maxval    : Option Nat    := none
  tupleType : Option String := none
deriving DecidableEq, Repr

namespace Fields

def addOnce? (field : Option Nat) (rest : Bytes) : Option (Option Nat) :=
  match field with
  | some _ => none
  | none   => (signedNumber? UInt32.size rest).map some

-- The words for the type of a tuple may take several lines.
def add? (f : Fields) (name : String) (rest : Bytes) : Option Fields :=
  let text := String.ofList (rest.map fun b => Char.ofNat b.toNat)
  match name with
  | "WIDTH"    => (addOnce? f.width rest).map fun width => { f with width }
  | "HEIGHT"   => (addOnce? f.height rest).map fun height => { f with height }
  | "DEPTH"    => (addOnce? f.depth rest).map fun depth => { f with depth }
  | "MAXVAL"   => (addOnce? f.maxval rest).map fun maxval => { f with maxval }
  | "TUPLTYPE" => some { f with tupleType := some ((f.tupleType.map (· ++ " ")).getD "" ++ text) }
  | _          => none

def trim (line : Bytes) : Bytes :=
  ((line.dropWhile isSpace).reverse.dropWhile isSpace).reverse

-- Reads lines up to the one that ends the header.
def read? : (fuel : Nat) → Fields → Bytes → Option (Fields × Bytes)
  | 0,        _, _     => none
  | fuel + 1, f, bytes =>
    let (line, rest) := bytes.span (· ≠ 0x0a)
    let rest := rest.drop 1
    if bytes.isEmpty then
      none
    else if line.head? = some 0x23 then
      if (ByteArray.mk line.toArray).validateUTF8 then read? fuel f rest else none
    else if line.any (0x80 ≤ ·) then
      none
    else
      let (name, value) := line.span fun b => !isSpace b
      let name := String.ofList (name.map fun b => Char.ofNat b.toNat)
      if name = "ENDHDR" then
        some (f, rest)
      else
        match f.add? name (trim value) with
        | some f => read? fuel f rest
        | none   => none

-- The channels of a tuple and the size of its samples. Without a type of the tuple samples are
-- bytes, whatever `maxval` is. Shades of gray are also those of a tuple without channels, but then
-- in words.
def layout? (f : Fields) (depth maxval : Nat) : Option (Channels × SampleSize) :=
  let sized (channels : Channels) := (SampleSize.fit? maxval).map (channels, ·)
  let bilevel (channels : Channels) := if maxval = 1 then some (channels, .bilevel) else none
  match f.tupleType, depth with
  | none, 1                       => some (.gray, .byte)
  | none, 2                       => some (.grayAlpha, .byte)
  | none, 3                       => some (.rgb, .byte)
  | none, 4                       => some (.rgba, .byte)
  | some "BLACKANDWHITE", 1       => bilevel .gray
  | some "BLACKANDWHITE_ALPHA", 2 => bilevel .grayAlpha
  | some "GRAYSCALE", 0           => (SampleSize.fit? maxval).map fun _ => (.gray, .word)
  | some "GRAYSCALE", 1           => sized .gray
  | some "GRAYSCALE_ALPHA", 2     => sized .grayAlpha
  | some "RGB", 3                 => sized .rgb
  | some "RGB_ALPHA", 4           => sized .rgba
  | _, _                          => none

def toHeader? (f : Fields) : Option Header := do
  let width ← f.width
  let height ← f.height
  let depth ← f.depth
  let maxval ← f.maxval
  guard (0 < maxval)
  let (channels, size) ← f.layout? depth maxval
  return .samples .binary channels size (.ofNat width) (.ofNat height) maxval

end Fields

def mapHeader? (bytes : Bytes) : Option (Header × Bytes) := do
  match bytes with
  | 0x0a :: rest =>
    let (fields, rest) ← Fields.read? (rest.length + 1) {} rest
    let header ← fields.toHeader?
    return (header, rest)
  | _ => none

-- The kind of the picture is told by its first two bytes.
def header? : Bytes → Option (Header × Bytes)
  | 0x50 :: 0x31 :: rest => bitmapHeader? .ascii rest
  | 0x50 :: 0x32 :: rest => samplesHeader? .ascii .gray rest
  | 0x50 :: 0x33 :: rest => samplesHeader? .ascii .rgb rest
  | 0x50 :: 0x34 :: rest => bitmapHeader? .binary rest
  | 0x50 :: 0x35 :: rest => samplesHeader? .binary .gray rest
  | 0x50 :: 0x36 :: rest => samplesHeader? .binary .rgb rest
  | 0x50 :: 0x37 :: rest => mapHeader? rest
  | _                    => none

end PagePrep.Netpbm
