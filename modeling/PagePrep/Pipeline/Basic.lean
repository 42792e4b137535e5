import PagePrep.Furigana.Removal
import PagePrep.Gray.Picture
import PagePrep.Pipeline.Error

namespace PagePrep

-- The page that comes out. Without binarization it stays in shades of gray.
inductive PageOutput where
  | gray (image : GrayImage)
  | binary (page : Page)
deriving DecidableEq

namespace PageOutput

def width : PageOutput → UInt32
  | gray image  => image.width
  | binary page => page.width

def height : PageOutput → UInt32
  | gray image  => image.height
  | binary page => page.height

def isBinary : PageOutput → Bool
  | gray _   => false
  | binary _ => true

def toGray : PageOutput → GrayImage
  | gray image  => image
  | binary page => page.toGray

end PageOutput

structure PageResult where
  output   : PageOutput
  -- The picture was inverted.
  negated  : Bool
  -- What the removal of furigana did, if there was one.
  furigana : Option RemovalReport
deriving DecidableEq

namespace GrayImage

def scaleIfEnabled (o : ScaleOptions) (image : GrayImage) : Except PageError GrayImage :=
  if o.enabled then (image.scale o.factor).mapError .ofScale else .ok image

def sharpenIfEnabled (o : UnsharpOptions) (image : GrayImage) : Except PageError GrayImage :=
  if o.enabled then (image.unsharpMask o.halfwidth o.fract).mapError .ofUnsharp else .ok image

end GrayImage

def Page.removeFuriganaIfEnabled (o : PageOptions) (page : Page) :
    Except (Failure PageError) (Page × Option RemovalReport) :=
  match o.furigana.mode.orientation? with
  | none             => .ok (page, none)
  | some orientation =>
    match removeFurigana (o.furigana.toRemoval o.magnification) orientation page with
    | (.ok report, page) => .ok (page, some report)
    | (.error e, _)      => .error (e.map (.furiganaFailed orientation))

-- The steps up to the page in shades of gray, and whether the picture was inverted on the way.
def Picture.prepare (o : PageOptions) (picture : Picture) :
    Except PageError (GrayImage × Bool) := do
  let (gray, negated) ←
    (picture.toGray.normalizePolarity o.polarity o.binarize).mapError .ofPolarity
  let gray ← gray.scaleIfEnabled o.scale
  let gray ← gray.sharpenIfEnabled o.unsharp
  return (gray, negated)

-- All steps between reading a picture and writing the page.
def processPicture (o : PageOptions) (picture : Picture) :
    Except (Failure PageError) PageResult := do
  let (gray, negated) ← (picture.prepare o).mapError .raised
  if o.binarize.enabled then
    let page ← (gray.binarize o.binarize).mapError fun e => Failure.raised (PageError.ofBinarize e)
    let (page, report) ← page.removeFuriganaIfEnabled o
    return ⟨.binary page, negated, report⟩
  else
    return ⟨.gray gray, negated, none⟩

-- Options that say of how many threads make a pool of them for the page, or fail to. The pool has
-- no influence on what comes of the page.
def processImage (startThreads : UInt64 → Except String Unit) (o : PageOptions)
    (picture : Picture) : Except (Failure PageError) PageResult := do
  if let some threads := o.threads then
    (startThreads threads).mapError fun reason => Failure.raised (PageError.threadPool reason)
  processPicture o picture

end PagePrep
