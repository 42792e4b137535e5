namespace PagePrep

-- The steps that a page goes through, in their order.
inductive Stage where
  | initializing
  | loading
  | grayscale
  | polarity
  | scaling
  | sharpening
  | binarizing
  | removingFurigana
  | writing
  | completed
deriving DecidableEq, Repr

namespace Stage

def all : List Stage :=
  [initializing, loading, grayscale, polarity, scaling, sharpening, binarizing, removingFurigana,
    writing, completed]

def name : Stage → String
  | initializing     => "Initializing"
  | loading          => "Loading"
  | grayscale        => "Grayscale"
  | polarity         => "Polarity"
  | scaling          => "Scaling"
  | sharpening       => "Sharpening"
  | binarizing       => "Binarizing"
  | removingFurigana => "RemovingFurigana"
  | writing          => "Writing"
  | completed        => "Completed"

def japanese : Stage → String
  | initializing     => "初期化中"
  | loading          => "画像読込中"
  | grayscale        => "グレースケール変換中"
  | polarity         => "白黒反転判定中"
  | scaling          => "拡大中"
  | sharpening       => "シャープ化中"
  | binarizing       => "二値化中"
  | removingFurigana => "ルビ除去中"
  | writing          => "画像書出中"
  | completed        => "完了"

def text (stage : Stage) : String :=
  s!"{stage.name} ({stage.japanese})"

end Stage

-- How much is printed.
inductive Verbosity where
  | quiet
  | normal
  | verbose
  | veryVerbose
deriving DecidableEq, Repr

inductive LogLevel where
  | warn
  | info
  | debug
  | trace
deriving DecidableEq, Repr

namespace Verbosity

def all : List Verbosity :=
  [quiet, normal, verbose, veryVerbose]

def name : Verbosity → String
  | quiet       => "Quiet"
  | normal      => "Normal"
  | verbose     => "Verbose"
  | veryVerbose => "VeryVerbose"

-- From how often more was asked for; to ask for quiet outweighs it.
def ofFlags (more : Nat) (quiet : Bool) : Verbosity :=
  if quiet then .quiet
  else match more with
    | 0 => normal
    | 1 => verbose
    | _ => veryVerbose

def rank : Verbosity → Nat
  | quiet       => 0
  | normal      => 1
  | verbose     => 2
  | veryVerbose => 3

-- Nothing is shown when quiet is asked for, not even what is meant for quiet runs.
def shows (v required : Verbosity) : Bool :=
  v != quiet && required.rank ≤ v.rank

def logLevel : Verbosity → LogLevel
  | quiet       => .warn
  | normal      => .info
  | verbose     => .debug
  | veryVerbose => .trace

end Verbosity

def LogLevel.name : LogLevel → String
  | warn  => "WARN"
  | info  => "INFO"
  | debug => "DEBUG"
  | trace => "TRACE"

end PagePrep
