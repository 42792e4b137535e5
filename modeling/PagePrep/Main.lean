import PagePrep.Command.Run

namespace PagePrep

-- The paths of the files that a command reads and writes.
def Command.paths : Command → List String
  | process a => [a.input, a.output] ++ a.config.toList
  | legacy a  => [a.input, a.output]
  | info      => []

-- The files that a command works on, the input first.
def Command.files? : Command → Option (String × String)
  | process a => some (a.input, a.output)
  | legacy a  => some (a.input, a.output)
  | info      => none

-- All places that are passed on the way along the names.
def Place.along (place : Place) : (names : List String) → List Place
  | []            => [place]
  | name :: names => place :: along (place.step name) names

-- The directory for configurations: the one that is set, if its path starts at the root, and
-- otherwise the usual one in the user's home.
def userDirectory (set home : Option String) : Option String :=
  match set.filter Path.isAbsolute with
  | some directory => some directory
  | none           => home.map fun home => Path.join home ".config"

-- Seconds with two places.
def elapsedText (milliseconds : Nat) : String :=
  let hundredths := (milliseconds + 5) / 10
  let places := hundredths % 100
  s!"Time: {hundredths / 100}." ++ (if places < 10 then s!"0{places}s" else s!"{places}s")

namespace Disk

-- The file is opened behind its end, so its content stays as it is.
def isWritable (path : String) : IO Bool := do
  try
    let _ ← IO.FS.Handle.mk path .append
    return true
  catch _ =>
    return false

-- Whether a directory takes something new shows when the page is written.
def entryAt? (place : Place) : IO (Option Entry) := do
  let path := "/" ++ "/".intercalate place
  try
    let content ← IO.FS.readBinFile path
    return some (.file content.toList true (← isWritable path))
  catch
    | .noFileOrDirectory .. => return none
    | .inappropriateType .. => return some (.directory true true)
    | _                     => return some (.file [] false (← isWritable path))

-- What there is on the way along the paths.
def store (start : Place) (paths : List String) : IO Store := do
  let mut entries : List (Place × Entry) := []
  for path in paths do
    let origin := if Path.isAbsolute path then [] else start
    for place in Place.along origin (Path.names path) do
      if (entries.lookup place).isNone then
        if let some entry ← entryAt? place then
          entries := (place, entry) :: entries
  let found := entries
  return { start, entryAt? := fun place => found.lookup place }

def text? (path : String) : IO (Option String) := do
  try
    return some (← IO.FS.readFile path)
  catch _ =>
    return none

def environment : IO Environment := do
  let platform ← text? "/proc/sys/kernel/ostype"
  let architecture ← text? "/proc/sys/kernel/arch"
  let processors ← text? "/proc/cpuinfo"
  let count := (processors.getD "").splitOn "\nprocessor"
  return {
    userDirectory := userDirectory (← IO.getEnv "XDG_CONFIG_HOME") (← IO.getEnv "HOME")
    platform      := (platform.getD "unknown").trimAscii.toString.toLower
    architecture  := (architecture.getD "unknown").trimAscii.toString
    processors    := count.length
    decoder       := fun _ _ => .error "not a picture"
    encoders      := fun _ _ => { bytes := [], failure? := some "no encoder for the format" }
    startThreads  := fun _ => .ok ()
  }

-- Writes the page to the disk if the run has changed its file.
def save (before after : Store) (input output : String) : IO (Option RunError) := do
  match after.content? output with
  | none         => return none
  | some content =>
    if before.content? output = some content then
      return none
    try
      IO.FS.writeBinFile output ⟨content.toArray⟩
      return none
    catch e =>
      return some (.page input (.writeFailed s!"{output}: {e}"))

end Disk

end PagePrep

open PagePrep

def main (arguments : List String) : IO UInt32 := do
  let begun ← IO.monoMsNow
  let environment ← Disk.environment
  let start := (Path.names (← IO.currentDir).toString).filter (· ≠ "")
  let command := (Invocation.ofArguments arguments).toOption.map Invocation.command
  let paths := (command.map Command.paths).getD [] ++ Store.configPaths environment.userDirectory
  let store ← Disk.store start paths
  let outcome := environment.run store arguments
  if let some (input, output) := command.bind Command.files? then
    if let some e ← Disk.save store outcome.store input output then
      IO.eprintln e.line
      return e.exitCode.toUInt32
  for line in outcome.output do
    match line with
    | .text s  => IO.println s
    | .elapsed => IO.println (elapsedText ((← IO.monoMsNow) - begun))
  for line in outcome.errors do
    IO.eprintln line
  return outcome.exitCode.toUInt32
