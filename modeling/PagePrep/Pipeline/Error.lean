import PagePrep.Furigana.Axis
import PagePrep.Furigana.Options
import PagePrep.Gray.Polarity
import PagePrep.Gray.Scale
import PagePrep.Gray.Unsharp
import PagePrep.Pipeline.Stage

namespace PagePrep

-- Why a page could not be processed. A reason is the text of the failed step.
inductive PageError where
  | imageNotFound (path : String)
  | readFailed (reason : String)
  | polarityFailed (reason : String)
  | scaleFailed (reason : String)
  | sharpenFailed (reason : String)
  | binarizeFailed (reason : String)
  | furiganaFailed (orientation : Orientation) (source : RemovalError)
  | unsupportedFormat (path : String)
  | writeFailed (reason : String)
  | threadPool (reason : String)
  | ioError (reason : String)
deriving DecidableEq, Repr

namespace PageError

def message : PageError → String
  | imageNotFound path    => "Image not found: " ++ path
  | readFailed reason     => "Failed to read image: " ++ reason
  | polarityFailed reason => "Polarity detection failed: " ++ reason
  | scaleFailed reason    => "Scaling failed: " ++ reason
  | sharpenFailed reason  => "Unsharp mask failed: " ++ reason
  | binarizeFailed reason => "Binarization failed: " ++ reason
  | furiganaFailed orientation source =>
    s!"Furigana removal failed ({orientation.text}): " ++ source.message
  | unsupportedFormat path => "Unsupported output format: " ++ path
  | writeFailed reason     => "Failed to write image: " ++ reason
  | threadPool reason      => "Thread pool error: " ++ reason
  | ioError reason         => "IO error: " ++ reason

-- The errors that caused it, each the cause of the one before.
def sources : PageError → List String
  | furiganaFailed _ source => source.message :: source.source?.toList.map RasterError.message
  | ioError reason          => [reason]
  | _                       => []

-- The stage that the error is counted to.
def stage : PageError → Stage
  | imageNotFound _ | readFailed _                      => .loading
  | polarityFailed _                                    => .polarity
  | scaleFailed _                                       => .scaling
  | sharpenFailed _                                     => .sharpening
  | binarizeFailed _                                    => .binarizing
  | furiganaFailed _ _                                  => .removingFurigana
  | unsupportedFormat _ | writeFailed _ | ioError _     => .writing
  | threadPool _                                        => .initializing

def exitCode : PageError → UInt8
  | imageNotFound _ | readFailed _ => 1
  | threadPool _                   => 2
  | polarityFailed _               => 4
  | scaleFailed _                  => 6
  | sharpenFailed _                => 7
  | binarizeFailed _               => 8
  | furiganaFailed .vertical _     => 9
  | furiganaFailed .horizontal _   => 10
  | unsupportedFormat _            => 11
  | writeFailed _ | ioError _      => 12

def ofPolarity : PolarityError → PageError
  | .binarize e => polarityFailed (binarizeFailed e.reason).message
  | .noBorder   => polarityFailed "cannot sample border of empty image"

def ofScale (e : ScaleError) : PageError :=
  scaleFailed e.reason

def ofUnsharp (e : UnsharpError) : PageError :=
  sharpenFailed e.reason

def ofBinarize (e : BinarizeError) : PageError :=
  binarizeFailed e.reason

end PageError

end PagePrep
