namespace PagePrep

-- Why reading arguments ends without a command. To ask for help or for the version is no mistake.
inductive ArgumentError where
  | helpAsked (subcommand : Option String)
  | versionAsked
  | nothingGiven
  | missingSubcommand
  | unknownSubcommand (name : String)
  | unknownArgument (argument : String)
  -- A flag has been given a value.
  | surplusValue (argument : String)
  -- There is no value, or it is none of those that can be chosen.
  | invalidValue (argument value : String)
  -- The value is not a number that the argument can have.
  | malformedValue (argument value : String)
  -- An argument has been given twice, or with another that it does not go with.
  | conflict (argument : String)
  | missingArgument (argument : String)
deriving DecidableEq, Repr

namespace ArgumentError

def exitCode : ArgumentError → UInt8
  | helpAsked _ | versionAsked => 0
  | _                          => 2

def message : ArgumentError → String
  | helpAsked _                   => "help requested"
  | versionAsked                  => "version requested"
  | nothingGiven                  => "no arguments given"
  | missingSubcommand             => "a subcommand is required but none was given"
  | unknownSubcommand name        => "unrecognized subcommand: " ++ name
  | unknownArgument argument      => "unexpected argument: " ++ argument
  | surplusValue argument         => argument ++ " takes no value"
  | invalidValue argument value
  | malformedValue argument value => "invalid value for " ++ argument ++ ": " ++ value
  | conflict argument             => argument ++ " cannot be used again or with the others"
  | missingArgument argument      => argument ++ " was not given"

end ArgumentError

-- Something that takes one value, which then changes what has been read.
structure Slot (α : Type) where
  name : String
  set  : String → Except ArgumentError (α → α)

inductive Action (α : Type) where
  | flag (set : α → α)
  -- A flag that may be given many times.
  | repeated (set : α → α)
  | value (set : String → Except ArgumentError (α → α))
  -- Ends the reading.
  | stop (error : ArgumentError)

structure NamedOption (α : Type) where
  long   : String
  short  : Option Char := none
  action : Action α

-- What may be given behind a command or a subcommand.
structure Level (α : Type) where
  options     : List (NamedOption α)
  -- All of these have to be given.
  positions   : List (Slot α)          := []
  subcommands : List String            := []
  conflicts   : List (String × String) := []

namespace Action

variable {α β : Type}

-- An action on a part of what is read.
def lift (f : (α → α) → β → β) : Action α → Action β
  | flag set     => flag (f set)
  | repeated set => repeated (f set)
  | value set    => value fun text => (set text).map f
  | stop error   => stop error

end Action

-- A level with options of its own in front, about another part of what is read.
def Level.including {α β : Type} (level : Level α) (options : List (NamedOption β)) :
    Level (β × α) where
  options :=
    options.map (fun o => ⟨o.long, o.short, o.action.lift (Prod.map · id)⟩) ++
    level.options.map (fun o => ⟨o.long, o.short, o.action.lift (Prod.map id ·)⟩)
  positions :=
    level.positions.map fun slot => ⟨slot.name, fun text => (slot.set text).map (Prod.map id ·)⟩
  subcommands := level.subcommands
  conflicts   := level.conflicts

-- A value is taken over only when the next argument has been looked at, or none is left.
inductive Pending (α : Type) where
  | nothing
  | waiting (slot : Slot α)
  | filled (slot : Slot α) (text : String)

structure Reading (α : Type) where
  value     : α
  -- The names of what was given.
  given     : List String      := []
  -- Those that are not filled yet.
  positions : List (Slot α)
  pending   : Pending α        := .nothing

namespace Reading

variable {α : Type}

def isWaiting (r : Reading α) : Bool :=
  match r.pending with
  | .waiting _             => true
  | .nothing | .filled _ _ => false

-- Nothing but a repeated flag can be given twice.
def once (r : Reading α) (name : String) : Except ArgumentError Unit :=
  if name ∈ r.given then .error (.conflict name) else .ok ()

def apply (r : Reading α) (name : String) (set : α → α) : Reading α :=
  { r with value := set r.value, given := name :: r.given }

def fill (r : Reading α) (slot : Slot α) (text : String) : Except ArgumentError (Reading α) := do
  r.once slot.name
  return r.apply slot.name (← slot.set text)

def settle (r : Reading α) : Except ArgumentError (Reading α) :=
  match r.pending with
  | .nothing          => .ok r
  | .waiting slot     => .error (.invalidValue slot.name "")
  | .filled slot text => { r with pending := .nothing }.fill slot text

-- A slot whose value is the next argument.
def await (r : Reading α) (slot : Slot α) : Except ArgumentError (Reading α) := do
  return { ← r.settle with pending := .waiting slot }

-- A slot whose value is part of the same argument.
def attach (r : Reading α) (slot : Slot α) (text : String) : Except ArgumentError (Reading α) := do
  (← r.settle).fill slot text

-- An option that has no value with it.
def act (r : Reading α) (option : NamedOption α) : Except ArgumentError (Reading α) := do
  match option.action with
  | .flag set     =>
    let r ← r.settle
    r.once option.long
    return r.apply option.long set
  | .repeated set => return (← r.settle).apply option.long set
  | .value set    => r.await ⟨option.long, set⟩
  | .stop error   =>
    let _ ← r.settle
    throw error

end Reading

namespace Level

variable {α : Type}

-- An argument that begins with two dashes, without them.
def readLong (level : Level α) (r : Reading α) (body : List Char) :
    Except ArgumentError (Reading α) :=
  let (name, tail) := body.span (· ≠ '=')
  let name := String.ofList name
  match level.options.find? (·.long = name), tail with
  | none, _               => .error (.unknownArgument ("--" ++ name))
  | some option, []       => r.act option
  | some option, _ :: tail =>
    match option.action with
    | .value set => r.attach ⟨option.long, set⟩ (String.ofList tail)
    | _          => .error (.surplusValue ("--" ++ name))

-- The letters of an argument that begins with one dash. Behind an option that takes a value, the
-- rest is the value.
def readShorts (level : Level α) :
    (r : Reading α) → (letters : List Char) → Except ArgumentError (Reading α)
  | r, []           => .ok r
  | r, c :: letters =>
    match level.options.find? (·.short = some c) with
    | none        => .error (.unknownArgument (String.ofList ['-', c]))
    | some option =>
      match option.action, letters with
      | .value set, '=' :: text  => r.attach ⟨option.long, set⟩ (String.ofList text)
      | .value set, text@(_ :: _) => r.attach ⟨option.long, set⟩ (String.ofList text)
      | _, _                     => do level.readShorts (← r.act option) letters

def surplus (level : Level α) (trailing : Bool) (argument : String) : ArgumentError :=
  if level.subcommands.isEmpty ∨ (trailing ∧ argument ∈ level.subcommands) then
    .unknownArgument argument
  else
    .unknownSubcommand argument

def readPosition (level : Level α) (r : Reading α) (trailing : Bool) (argument : String) :
    Except ArgumentError (Reading α) :=
  match r.positions with
  | []                => .error (level.surplus trailing argument)
  | slot :: positions => do
    return { ← r.settle with positions, pending := .filled slot argument }

-- Reads up to a subcommand, which is given with what follows it. Behind two dashes all arguments go
-- by position.
def scan (level : Level α) :
    (trailing : Bool) → (r : Reading α) → (arguments : List String) →
      Except ArgumentError (Reading α × Option (String × List String))
  | _,        r, []                    => .ok (r, none)
  | trailing, r, argument :: arguments =>
    if trailing then do
      level.scan true (← level.readPosition r true argument) arguments
    else if argument ∈ level.subcommands ∧ !r.isWaiting then
      .ok (r, some (argument, arguments))
    else
      match argument.toList, r.pending with
      | ['-', '-'], _             => level.scan true r arguments
      | '-' :: '-' :: body, _     => do
        level.scan false (← level.readLong r body) arguments
      | '-' :: letters@(_ :: _), _ => do
        level.scan false (← level.readShorts r letters) arguments
      | _, .waiting slot          =>
        level.scan false { r with pending := .filled slot argument } arguments
      | _, _                      => do
        level.scan false (← level.readPosition r false argument) arguments

def start (level : Level α) (value : α) : Reading α :=
  { value, positions := level.positions }

-- What has been read, if nothing is missing and all of it goes together.
def finish (level : Level α) (r : Reading α) : Except ArgumentError α := do
  let r ← r.settle
  match level.conflicts.find? fun (a, b) => a ∈ r.given ∧ b ∈ r.given with
  | some (a, _) => throw (.conflict a)
  | none        =>
    match r.positions with
    | slot :: _ => throw (.missingArgument slot.name)
    | []        => return r.value

-- The arguments of a level without subcommands.
def read (level : Level α) (value : α) (arguments : List String) : Except ArgumentError α := do
  level.finish (← level.scan false (level.start value) arguments).1

end Level

end PagePrep
