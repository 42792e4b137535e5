import PagePrep.Gray.Basic

namespace PagePrep

-- What a sample is stored as.
inductive Depth where
  | byte
  | word
  -- From 0 for black to 1 for full light.
  | real
deriving DecidableEq, Repr

def Depth.Sample : Depth → Type
  | byte => UInt8
  | word => UInt16
  | real => Float32

inductive Channels where
  | gray
  | grayAlpha
  | rgb
  | rgba
deriving DecidableEq, Repr

def Channels.count : Channels → Nat
  | gray      => 1
  | grayAlpha => 2
  | rgb       => 3
  | rgba      => 4

-- A decoded picture: every pixel has one sample for each channel.
structure Picture where
  depth    : Depth
  channels : Channels
  pixels   : Grid (Vector depth.Sample channels.count)

-- The sample in 256 shades. A real one that is not below full light, or is not a number, is full.
def Depth.shade : (depth : Depth) → depth.Sample → UInt8
  | byte, (v : UInt8)   => v
  | word, (v : UInt16)  => .ofNat ((v.toNat + 128) / 257)
  | real, (v : Float32) =>
    let v : Float32 := if v < 1 then (if v < 0 then 0 else v) else 1
    roundToByte (v * 255)

-- The shade of gray of a color.
def luminance (red green blue : UInt8) : UInt8 :=
  let value := 0.3 * red.toFloat32 + 0.5 * green.toFloat32 + 0.2 * blue.toFloat32 + 0.5
  if value < 255 then value.toUInt8 else 255

-- The shade of gray of a pixel. Only colors are weighted, and alpha does not count.
def Channels.toGray : (channels : Channels) → Vector UInt8 channels.count → UInt8
  | gray,      (v : Vector UInt8 1) => v[0]
  | grayAlpha, (v : Vector UInt8 2) => v[0]
  | rgb,       (v : Vector UInt8 3) => luminance v[0] v[1] v[2]
  | rgba,      (v : Vector UInt8 4) => luminance v[0] v[1] v[2]

namespace Picture

def width (p : Picture) : UInt32 :=
  p.pixels.width

def height (p : Picture) : UInt32 :=
  p.pixels.height

def toGray (p : Picture) : GrayImage :=
  p.pixels.map fun pixel => p.channels.toGray (pixel.map p.depth.shade)

def ofGray (image : GrayImage) : Picture :=
  ⟨.byte, .gray, image.map fun (v : UInt8) => #v[v]⟩

-- From the samples of all pixels in order, those of one pixel side by side.
def ofSamples? (depth : Depth) (channels : Channels) (width height : UInt32)
    (samples : Array depth.Sample) : Option Picture :=
  if h : samples.size = width.toNat * height.toNat * channels.count then
    let cells := Array.ofFn fun i : Fin (width.toNat * height.toNat) =>
      Vector.ofFn fun k : Fin channels.count =>
        have : i.val * channels.count + k.val < samples.size := by
          rw [h]
          calc i.val * channels.count + k.val
              < i.val * channels.count + channels.count := Nat.add_lt_add_left k.isLt _
            _ = (i.val + 1) * channels.count := (Nat.succ_mul _ _).symm
            _ ≤ _ := Nat.mul_le_mul_right _ i.isLt
        samples[i.val * channels.count + k.val]
    some ⟨depth, channels, ⟨width, height, cells, Array.size_ofFn⟩⟩
  else
    none

def samples (p : Picture) : Array p.depth.Sample :=
  p.pixels.cells.flatMap fun pixel => pixel.toArray

end Picture

end PagePrep
