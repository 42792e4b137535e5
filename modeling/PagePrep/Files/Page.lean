import PagePrep.Files.Format
import PagePrep.Netpbm.Decode
import PagePrep.Netpbm.Encode
import PagePrep.Pipeline.Basic
import PagePrep.Store.Basic

namespace PagePrep

namespace PageOutput

-- The content of the page tells which format of netpbm it is.
def toNetpbm : PageOutput → Bytes
  | gray image  => Netpbm.encodeGray image
  | binary page => Netpbm.encodePage page

def encode (encoders : Encoders) (output : PageOutput) : OutputFormat → Encoded
  | .netpbm          => { bytes := output.toNetpbm }
  | .encoded encoder => encoders encoder output.toGray

end PageOutput

-- The first two bytes of every file in a format of netpbm.
def Netpbm.hasMagic : Bytes → Bool
  | 0x50 :: b :: _ => 0x31 ≤ b && b ≤ 0x37
  | _              => false

-- The picture that a file holds.
def decodePicture (decoder : Decoder) (extension? : Option String) (content : Bytes) :
    Except String Picture :=
  if Netpbm.hasMagic content then
    match Netpbm.decode? content with
    | some picture => .ok picture
    | none         => .error "not a picture"
  else
    decoder extension? content

-- What the processing of a file is given to work with.
structure Facilities where
  decoder      : Decoder
  encoders     : Encoders
  -- Makes a pool of so many threads, or says why there can not be one.
  startThreads : UInt64 → Except String Unit

namespace Store

def loadPicture (s : Store) (decoder : Decoder) (path : String) : Except PageError Picture := do
  if !s.contains path then
    throw (.imageNotFound path)
  let content ← (s.read path).mapError fun e => .ioError e.message
  (decodePicture decoder (Path.extension? path) content).mapError fun reason =>
    .readFailed (path ++ ": " ++ reason)

-- The format follows the extension of the path. The file is made before the page is encoded, so
-- that it is there even if its encoder fails.
def savePage (encoders : Encoders) (output : PageOutput) (path : String) :
    EStateM PageError Store Unit := do
  let format ← MonadExcept.ofExcept (OutputFormat.ofPath path)
  let encoded := output.encode encoders format
  let written := ((← get).write path encoded.bytes).mapError fun e =>
    PageError.writeFailed (path ++ ": " ++ e.message)
  set (← MonadExcept.ofExcept written)
  if let some reason := encoded.failure? then
    throw (.writeFailed (path ++ ": " ++ reason))

-- Reads a picture, processes it and writes the page. Nothing is processed if the page could not be
-- written in the format that its path asks for. What has been written when a step fails stays.
def processFile (f : Facilities) (o : PageOptions) (input output : String) :
    EStateM (Failure PageError) Store PageResult := do
  let picture ← MonadExcept.ofExcept (((← get).loadPicture f.decoder input).mapError .raised)
  let _ ← MonadExcept.ofExcept ((OutputFormat.ofPath output).mapError .raised)
  let result ← MonadExcept.ofExcept (processImage f.startThreads o picture)
  (savePage f.encoders result.output output).adaptExcept .raised
  return result

end Store

end PagePrep
