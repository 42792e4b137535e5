import PagePrep.Gray.Binarize

namespace PagePrep

inductive PolarityError where
  | binarize (error : BinarizeError)
  -- The page has no border.
  | noBorder
deriving DecidableEq, Repr

namespace GrayImage

-- Whether the picture shows light text on a dark ground. The mode `auto` tells from the border of
-- the picture, binarized on trial.
def shouldInvert (image : GrayImage) (polarity : PolarityOptions) (o : BinarizeOptions) :
    Except PolarityError Bool :=
  match polarity.mode with
  | .no   => .ok false
  | .yes  => .ok true
  | .auto =>
    match image.binarize o with
    | .error e => .error (.binarize e)
    | .ok page =>
      match page.borderDarkness? with
      | none          => .error .noBorder
      | some darkness => .ok (polarity.darkBgThreshold < darkness)

-- The picture with dark text on a light ground, and whether it had to be inverted.
def normalizePolarity (image : GrayImage) (polarity : PolarityOptions) (o : BinarizeOptions) :
    Except PolarityError (GrayImage × Bool) := do
  let inverted ← image.shouldInvert polarity o
  return (if inverted then image.invert else image, inverted)

end GrayImage

end PagePrep
