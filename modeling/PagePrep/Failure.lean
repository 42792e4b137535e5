namespace PagePrep

-- What ends a computation for good. No caller sees it as an error.
inductive Panic where
  -- More room was asked for than any allocation can have.
  | capacityOverflow
deriving DecidableEq, Repr

def Panic.message : Panic → String
  | capacityOverflow => "capacity overflow"

-- How a computation that can panic fails: with an error that its caller gets, or not even that.
inductive Failure (ε : Type) where
  | raised (e : ε)
  | panicked (p : Panic)
deriving DecidableEq, Repr

namespace Failure

variable {ε ε' : Type}

def map (f : ε → ε') : Failure ε → Failure ε'
  | raised e   => .raised (f e)
  | panicked p => .panicked p

end Failure

end PagePrep
