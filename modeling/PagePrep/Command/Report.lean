import PagePrep.Command.Basic
import PagePrep.Files.Config
import PagePrep.Files.Page
import PagePrep.Options.Write

namespace PagePrep

-- What a run is told about where it runs.
structure Environment extends Facilities where
  -- Where the user keeps configurations.
  userDirectory : Option String
  platform      : String
  architecture  : String
  processors    : Nat

-- A line that is printed.
inductive OutputLine where
  | text (s : String)
  -- How long the page has taken.
  | elapsed
deriving DecidableEq, Repr

namespace PageOptions

def polarityLine (o : PolarityOptions) : String :=
  s!"  2. Polarity: {o.mode.title} (threshold " ++
    NumberStyle.message.single o.darkBgThreshold ++ ")"

def scaleLine (o : ScaleOptions) : String :=
  "  3. Scaling: " ++
    if o.enabled then NumberStyle.message.single o.factor ++ "x" else "DISABLED"

def unsharpLine (o : UnsharpOptions) : String :=
  "  4. Unsharp mask: " ++
    if o.enabled then s!"halfwidth {o.halfwidth}, fract " ++ NumberStyle.message.single o.fract
    else "DISABLED"

def binarizeLine (o : BinarizeOptions) : String :=
  "  5. Adaptive Otsu: " ++
    if o.enabled then
      s!"tiles {o.tileWidth}x{o.tileHeight}, smoothing {o.smoothX}x{o.smoothY}, " ++
        "score fraction " ++ NumberStyle.message.single o.scoreFraction
    else
      "DISABLED"

def furiganaLine (o : PageOptions) : String :=
  "  6. Furigana removal: " ++
    if o.binarize.enabled then
      s!"{o.furigana.mode.title} (magnification " ++
        NumberStyle.message.single o.magnification ++ ")"
    else
      "SKIPPED"

-- What a run with these options would do.
def plan (o : PageOptions) (input output : String) (processors : Nat) : List String :=
  ["=== Dry Run - Execution Plan ===", "", "Input: " ++ input, "Output: " ++ output, "",
    "Pipeline:", "  1. Grayscale", polarityLine o.polarity, scaleLine o.scale,
    unsharpLine o.unsharp, binarizeLine o.binarize, o.furiganaLine, "",
    s!"Threads: {(o.threads.map UInt64.toNat).getD processors}", "", "Resolved options:", o.toJson]

end PageOptions

def RemovalReport.line (r : RemovalReport) : String :=
  s!"Furigana: {r.spansFound} spans, {r.spansKept} kept, average width {r.averageWidth}, " ++
    s!"{r.erasedLines} lines erased" ++ if r.truncated then " (span list full)" else ""

def PageResult.summary (r : PageResult) : List OutputLine :=
  let lines := [s!"Output: {r.output.width}x{r.output.height}",
    "Negated: " ++ if r.negated then "YES" else "NO"] ++ r.furigana.toList.map RemovalReport.line
  lines.map .text ++ [.elapsed]

namespace Environment

def configLine (s : Store) (path : String) : String :=
  s!"  {path} (" ++ (if s.isFile path then "found" else "not found") ++ ")"

-- The text of the defaults ends in a line end, behind which there is no further line.
def defaultLines : List String :=
  (((Config.toToml? {}).getD "").splitOn "\n").dropLast.map fun line => "  " ++ line

-- The version, where configurations are looked for and the defaults.
def info (e : Environment) (s : Store) : List String :=
  [s!"{programName} v{programVersion}", "", "System Information:", "  Platform: " ++ e.platform,
    "  Arch: " ++ e.architecture, s!"  CPUs: {e.processors}", "", "Config File Locations:"] ++
    (Store.configPaths e.userDirectory).map (configLine s) ++ ["", "Defaults:"] ++ defaultLines

end Environment

end PagePrep
