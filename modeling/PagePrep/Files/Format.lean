import PagePrep.Bytes
import PagePrep.Gray.Picture
import PagePrep.Pipeline.Error
import PagePrep.Store.Path

namespace PagePrep

-- The formats besides those of netpbm that a page can be written in.
inductive Encoder where
  | avif
  | jpeg
  | png
  | gif
  | webP
  | tiff
  | tga
  | bmp
  | ico
  | hdr
  | openExr
  | farbfeld
  | qoi
deriving DecidableEq, Repr

inductive OutputFormat where
  -- A bitmap for a binary page and a graymap for one in shades of gray.
  | netpbm
  | encoded (encoder : Encoder)
deriving DecidableEq, Repr

namespace OutputFormat

-- Given an extension in lower case.
def ofExtension? : String → Option OutputFormat
  | "pbm" | "pgm" | "ppm" | "pnm" | "pam" => some .netpbm
  | "avif"                                => some (.encoded .avif)
  | "jpg" | "jpeg" | "jfif"               => some (.encoded .jpeg)
  | "png" | "apng"                        => some (.encoded .png)
  | "gif"                                 => some (.encoded .gif)
  | "webp"                                => some (.encoded .webP)
  | "tif" | "tiff"                        => some (.encoded .tiff)
  | "tga"                                 => some (.encoded .tga)
  | "bmp"                                 => some (.encoded .bmp)
  | "ico"                                 => some (.encoded .ico)
  | "hdr"                                 => some (.encoded .hdr)
  | "exr"                                 => some (.encoded .openExr)
  | "ff"                                  => some (.encoded .farbfeld)
  | "qoi"                                 => some (.encoded .qoi)
  | _                                     => none

def ofPath? (path : String) : Option OutputFormat := do
  ofExtension? (← Path.extension? path).toLower

def ofPath (path : String) : Except PageError OutputFormat :=
  match ofPath? path with
  | some format => .ok format
  | none        => .error (.unsupportedFormat path)

end OutputFormat

-- What an encoder has written, and why it stopped if it did not come to the end.
structure Encoded where
  bytes    : Bytes
  failure? : Option String := none
deriving DecidableEq, Repr

-- What writes a picture in a format. Not every encoder takes every picture.
abbrev Encoders := Encoder → GrayImage → Encoded

-- What reads the pictures of all formats but those of netpbm, or says why it can not. The content
-- of a file tells its format; the extension of its path counts where the content does not.
abbrev Decoder := Option String → Bytes → Except String Picture

end PagePrep
