import PagePrep.Netpbm.Header

namespace PagePrep.Netpbm

def shade (black : Bool) : UInt8 :=
  if black then 0 else 255

-- The number of bytes that a row of packed bits takes.
def rowBytes (width : Nat) : Nat :=
  (width + 7) / 8

def bitAt (bytes : Array UInt8) (width x y : Nat) : Bool :=
  (bytes.getD (y * rowBytes width + x / 8) 0).toNat.testBit (7 - x % 8)

-- In rows of whole bytes, the leftmost pixel in the highest bit. A bit that is set is black.
def packedBits? (width height : UInt32) (bytes : Bytes) : Option Picture :=
  let bytes := bytes.toArray
  if bytes.size < rowBytes width.toNat * height.toNat then
    none
  else
    some (.ofGray (Grid.ofFn width height fun x y _ =>
      shade (bitAt bytes width.toNat x.toNat y.toNat)))

-- The next `count` digits, which may have spaces between them.
def asciiBits? : (count : Nat) → (done : Array UInt8) → Bytes → Option (Array UInt8)
  | 0,         done, _         => some done
  | _ + 1,     _,    []        => none
  | count + 1, done, b :: rest =>
    if isSpace b then asciiBits? (count + 1) done rest
    else if b = 0x30 then asciiBits? count (done.push (shade false)) rest
    else if b = 0x31 then asciiBits? count (done.push (shade true)) rest
    else none

-- The next `count` numbers.
def asciiSamples? (bound : Nat) : (count : Nat) → (done : Array Nat) → Bytes → Option (Array Nat)
  | 0,         done, _     => some done
  | count + 1, done, bytes =>
    let (word, rest) := (bytes.dropWhile isSpace).span fun b => !isSpace b
    match number? bound word with
    | some n => asciiSamples? bound count (done.push n) (rest.drop 1)
    | none   => none

-- A sample on the scale from 0 to `top` in place of that from 0 to `maxval`.
def rescale (maxval top n : Nat) : Nat :=
  if maxval = top then
    n
  else
    let factor := (UInt32.ofNat top).toFloat32 / (UInt32.ofNat maxval).toFloat32
    min (roundToNat ((UInt32.ofNat n).toFloat32 * factor)) top

def wordAt (bytes : Array UInt8) (i : Nat) : Nat :=
  (bytes.getD (2 * i) 0).toNat * 256 + (bytes.getD (2 * i + 1) 0).toNat

-- Samples of one byte, or of two with the higher one first.
def binarySamples? (bytesEach count : Nat) (bytes : Bytes) : Option (Array Nat) :=
  let bytes := bytes.toArray
  if bytes.size < bytesEach * count then
    none
  else if bytesEach = 1 then
    some ((bytes.extract 0 count).map UInt8.toNat)
  else
    some (Array.ofFn fun i : Fin count => wordAt bytes i)

def samples? (encoding : Encoding) (channels : Channels) (size : SampleSize)
    (width height : UInt32) (maxval : Nat) (bytes : Bytes) : Option Picture := do
  let count := width.toNat * height.toNat * channels.count
  let samples ← match encoding with
    | .ascii  => asciiSamples? (size.top + 1) count #[] bytes
    | .binary => binarySamples? size.bytes count bytes
  guard (size ≠ .bilevel ∨ samples.all (· ≤ 1))
  let samples := samples.map (rescale maxval size.top)
  match size with
  | .bilevel | .byte =>
    Picture.ofSamples? .byte channels width height (samples.map fun n => (.ofNat n : UInt8))
  | .word            =>
    Picture.ofSamples? .word channels width height (samples.map fun n => (.ofNat n : UInt16))

-- The picture that a file holds. What follows its last sample does not matter.
def decode? (bytes : Bytes) : Option Picture := do
  let (header, rest) ← header? bytes
  match header with
  | .bitmap .binary width height => packedBits? width height rest
  | .bitmap .ascii width height  =>
    let cells ← asciiBits? (width.toNat * height.toNat) #[] rest
    let image ← Grid.ofCells? width height cells
    return .ofGray image
  | .samples encoding channels size width height maxval =>
    samples? encoding channels size width height maxval rest

end PagePrep.Netpbm
