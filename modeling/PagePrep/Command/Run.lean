import PagePrep.Command.Interface
import PagePrep.Command.Report

namespace PagePrep

-- What a run leaves behind.
structure Outcome where
  exitCode : UInt8
  output   : List OutputLine := []
  errors   : List String     := []
  store    : Store

inductive RunError where
  | config (e : ConfigError)
  | page (input : String) (e : PageError)
  | panic (p : Panic)
deriving DecidableEq, Repr

namespace RunError

def ofFailure (input : String) : Failure PageError → RunError
  | .raised e   => page input e
  | .panicked p => panic p

def exitCode : RunError → UInt8
  | config _ => 2
  | page _ e => e.exitCode
  | panic _  => 101

-- The error and all that caused it.
def line : RunError → String
  | config e     => ": ".intercalate ("Error" :: e.message :: e.source?.toList)
  | page input e =>
    ": ".intercalate (("Error during " ++ e.stage.text) :: ("processing " ++ input) ::
      e.message :: e.sources)
  | panic p      => p.message

end RunError

def Outcome.ofResult : EStateM.Result RunError Store (List OutputLine) → Outcome
  | .ok output s => { exitCode := 0, output, store := s }
  | .error e s   => { exitCode := e.exitCode, errors := [e.line], store := s }

namespace Environment

-- Only the file that the command line names is looked at, if it names one.
def config (env : Environment) (s : Store) (path? : Option String) : Except ConfigError Config :=
  match path? with
  | some path => s.loadConfigFrom path
  | none      => s.loadConfig env.userDirectory

def resolve (env : Environment) (s : Store) (a : ProcessArguments) :
    Except ConfigError PageOptions := do
  (← env.config s a.config).merge a.toOverrides

-- Processes a file, and sums up what was done where the user wants to see it.
def processPage (env : Environment) (v : Verbosity) (o : PageOptions) (input output : String) :
    EStateM RunError Store (List OutputLine) := do
  let result ← (Store.processFile env.toFacilities o input output).adaptExcept (.ofFailure input)
  return if v.shows .verbose then result.summary else []

def runCommand (env : Environment) (v : Verbosity) :
    Command → EStateM RunError Store (List OutputLine)
  | .process a => do
    let o ← MonadExcept.ofExcept ((env.resolve (← get) a).mapError .config)
    if a.dryRun then
      return (o.plan a.input a.output env.processors).map .text
    else
      env.processPage v o a.input a.output
  | .legacy a  => do
    let overrides ← MonadExcept.ofExcept (a.toOverrides.mapError .config)
    let o ← MonadExcept.ofExcept ((({} : Config).merge overrides).mapError .config)
    env.processPage v o a.input a.output
  | .info      => return (env.info (← get)).map .text

def runInvocation (env : Environment) (s : Store) (i : Invocation) : Outcome :=
  .ofResult ((env.runCommand i.verbosity i.command).run s)

end Environment

namespace ArgumentError

def output : ArgumentError → List String
  | versionAsked         => [s!"{programName} {programVersion}"]
  | helpAsked subcommand => Command.usage subcommand
  | _                    => []

def errors : ArgumentError → List String
  | versionAsked | helpAsked _ => []
  | nothingGiven               => Command.usage none
  | e                          => ["error: " ++ e.message]

end ArgumentError

def Environment.run (env : Environment) (s : Store) (arguments : List String) : Outcome :=
  match Invocation.ofArguments arguments with
  | .ok i    => env.runInvocation s i
  | .error e =>
    { exitCode := e.exitCode, output := e.output.map .text, errors := e.errors, store := s }

end PagePrep
