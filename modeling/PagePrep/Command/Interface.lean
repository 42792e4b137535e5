import PagePrep.Command.Basic
import PagePrep.Command.Reader
import PagePrep.Pipeline.Stage
import PagePrep.Text.Literal

namespace PagePrep

-- How often more was asked for, and whether quiet was. Both may stand in front of a subcommand or
-- behind it.
structure Globals where
  more  : Nat  := 0
  quiet : Bool := false
deriving DecidableEq, Repr

-- What is behind the subcommand counts, where there is something.
def Globals.orElse (inner outer : Globals) : Globals where
  more  := if inner.more = 0 then outer.more else inner.more
  quiet := inner.quiet || outer.quiet

structure Invocation where
  command : Command
  globals : Globals
deriving DecidableEq, Repr

def Invocation.verbosity (i : Invocation) : Verbosity :=
  Verbosity.ofFlags i.globals.more i.globals.quiet

-- What sets a part of the arguments to the value that a text stands for.
namespace Slot

variable {α β : Type}

def reading (read? : String → Option β) (set : β → α → α) (name : String) : Slot α where
  name := name
  set  := fun text =>
    match read? text with
    | some b => .ok (set b)
    | none   => .error (.malformedValue name text)

def single : (set : Float32 → α → α) → (name : String) → Slot α :=
  reading Literal.single?

def uint32 : (set : UInt32 → α → α) → (name : String) → Slot α :=
  reading fun text => (Literal.intBelow? UInt32.size text).map .ofNat

def uint64 : (set : UInt64 → α → α) → (name : String) → Slot α :=
  reading fun text => (Literal.natBelow? UInt64.size text).map .ofNat

-- The number of a mode.
def code : (set : UInt8 → α → α) → (name : String) → Slot α :=
  reading fun text => (Literal.intBelow? 3 text).map .ofNat

def path (set : String → α → α) (name : String) : Slot α where
  name := name
  set  := fun text => if text.isEmpty then .error (.invalidValue name text) else .ok (set text)

def choice (names : List (String × β)) (set : β → α → α) (name : String) : Slot α where
  name := name
  set  := fun text =>
    match names.lookup text with
    | some b => .ok (set b)
    | none   => .error (.invalidValue name text)

def toOption (slot : Slot α) (short : Option Char) : NamedOption α :=
  ⟨slot.name, short, .value slot.set⟩

end Slot

namespace Command

def flag {α : Type} (long : String) (set : α → α) : NamedOption α :=
  ⟨long, none, .flag set⟩

def helpOption {α : Type} (subcommand : Option String) : NamedOption α :=
  ⟨"help", some 'h', .stop (.helpAsked subcommand)⟩

def subcommands : List String :=
  ["process", "legacy", "info", "help"]

-- The count stays in a byte.
def globalOptions : List (NamedOption Globals) :=
  [⟨"verbose", some 'v', .repeated fun g => { g with more := min (g.more + 1) 255 }⟩,
    ⟨"quiet", some 'q', .flag fun g => { g with quiet := true }⟩]

def globalConflict : String × String :=
  ("verbose", "quiet")

def rootLevel : Level Globals where
  options     := globalOptions ++
    [helpOption none, ⟨"version", some 'V', .stop .versionAsked⟩]
  subcommands := subcommands
  conflicts   := [globalConflict]

def subcommandLevel {α : Type} (name : String) (level : Level α) : Level (Globals × α) :=
  { level with
    options   := helpOption (some name) :: level.options
    conflicts := globalConflict :: level.conflicts }.including globalOptions

def processOptions : List (NamedOption ProcessArguments) :=
  [(Slot.path (fun x a => { a with config := some x }) "config").toOption (some 'c'),
    (Slot.choice NegateMode.names (fun x a => { a with negate := some x }) "negate").toOption none,
    (Slot.single (fun x a => { a with darkBgThreshold := some x })
      "dark-bg-threshold").toOption none,
    (Slot.single (fun x a => { a with scale := some x }) "scale").toOption (some 's'),
    flag "no-scale" fun a => { a with noScale := true },
    (Slot.uint32 (fun x a => { a with unsharpHalfwidth := some x })
      "unsharp-halfwidth").toOption none,
    (Slot.single (fun x a => { a with unsharpFract := some x }) "unsharp-fract").toOption none,
    flag "no-unsharp" fun a => { a with noUnsharp := true },
    flag "no-binarize" fun a => { a with noBinarize := true },
    (Slot.uint32 (fun x a => { a with tileWidth := some x }) "tile-width").toOption none,
    (Slot.uint32 (fun x a => { a with tileHeight := some x }) "tile-height").toOption none,
    (Slot.uint32 (fun x a => { a with smoothX := some x }) "smooth-x").toOption none,
    (Slot.uint32 (fun x a => { a with smoothY := some x }) "smooth-y").toOption none,
    (Slot.single (fun x a => { a with scoreFraction := some x }) "score-fraction").toOption none,
    (Slot.choice FuriganaMode.names (fun x a => { a with furigana := some x })
      "furigana").toOption (some 'f'),
    (Slot.single (fun x a => { a with furiganaMagnification := some x })
      "furigana-magnification").toOption none,
    (Slot.uint64 (fun x a => { a with threads := some x }) "threads").toOption (some 't'),
    flag "dry-run" fun a => { a with dryRun := true }]

def processLevel : Level (Globals × ProcessArguments) :=
  subcommandLevel "process" {
    options   := processOptions
    positions := [.path (fun x a => { a with input := x }) "<input>",
      .path (fun x a => { a with output := x }) "<output>"]
    conflicts := [("scale", "no-scale")]
  }

def legacyLevel : Level (Globals × LegacyArguments) :=
  subcommandLevel "legacy" {
    options   := []
    positions := [
      .path (fun x a => { a with input := x }) "<input>",
      .path (fun x a => { a with output := x }) "<output>",
      .code (fun x a => { a with negate := x }) "<negate>",
      .single (fun x a => { a with darkBgThreshold := x }) "<dark-bg-threshold>",
      .uint32 (fun x a => { a with scale := x }) "<scale>",
      .single (fun x a => { a with scaleFactor := x }) "<scale-factor>",
      .uint32 (fun x a => { a with unsharp := x }) "<unsharp>",
      .uint32 (fun x a => { a with unsharpHalfwidth := x }) "<unsharp-halfwidth>",
      .single (fun x a => { a with unsharpFract := x }) "<unsharp-fract>",
      .uint32 (fun x a => { a with binarize := x }) "<binarize>",
      .uint32 (fun x a => { a with tileWidth := x }) "<tile-width>",
      .uint32 (fun x a => { a with tileHeight := x }) "<tile-height>",
      .uint32 (fun x a => { a with smoothX := x }) "<smooth-x>",
      .uint32 (fun x a => { a with smoothY := x }) "<smooth-y>",
      .single (fun x a => { a with scoreFraction := x }) "<score-fraction>",
      .code (fun x a => { a with furigana := x }) "<furigana>"]
  }

def infoLevel : Level (Globals × Unit) :=
  subcommandLevel "info" { options := [] }

def optionLine {α : Type} (o : NamedOption α) : String :=
  let short := (o.short.map fun c => String.ofList ['-', c, ',', ' ']).getD "    "
  let value := match o.action with
    | .value _ => " <value>"
    | _        => ""
  "  " ++ short ++ "--" ++ o.long ++ value

def levelUsage {α : Type} (level : Level α) (words : List String) : List String :=
  let positions := level.positions.map Slot.name
  let subcommand := if level.subcommands.isEmpty then [] else ["<command>"]
  [" ".intercalate (["Usage:", programName] ++ words ++ ["[options]"] ++ positions ++ subcommand),
    "", "Options:"] ++ level.options.map optionLine

-- How the program or one of its subcommands is used.
def usage : (subcommand : Option String) → List String
  | some "process" => levelUsage processLevel ["process"]
  | some "legacy"  => levelUsage legacyLevel ["legacy"]
  | some "info"    => levelUsage infoLevel ["info"]
  | _              =>
    levelUsage rootLevel [] ++ ["", "Commands:"] ++ subcommands.map fun name => "  " ++ name

-- `help` may have the name of one subcommand behind it.
def help : (names : List String) → ArgumentError
  | []        => .helpAsked none
  | [name]    => if name ∈ subcommands then .helpAsked (some name) else .unknownSubcommand name
  | name :: other :: _ =>
    .unknownSubcommand (if name ∈ subcommands then other else name)

-- The command that a subcommand makes of the arguments behind it.
def ofSubcommand (name : String) (arguments : List String) :
    Except ArgumentError (Globals × Command) := do
  match name with
  | "process" =>
    let (globals, a) ← processLevel.read ({}, {}) arguments
    return (globals, .process a)
  | "legacy"  =>
    let (globals, a) ← legacyLevel.read ({}, {}) arguments
    return (globals, .legacy a)
  | "info"    =>
    let (globals, _) ← infoLevel.read ({}, ()) arguments
    return (globals, .info)
  | _         => throw (help arguments)

end Command

-- A mistake behind the subcommand comes before one in front of it.
def Invocation.ofArguments (arguments : List String) : Except ArgumentError Invocation := do
  let (outer, subcommand?) ← Command.rootLevel.scan false (Command.rootLevel.start {}) arguments
  match subcommand? with
  | none                   =>
    throw (if outer.given.isEmpty then .nothingGiven else .missingSubcommand)
  | some (name, arguments) =>
    let (inner, command) ← Command.ofSubcommand name arguments
    return ⟨command, inner.orElse (← Command.rootLevel.finish outer)⟩

end PagePrep
