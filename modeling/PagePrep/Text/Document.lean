import PagePrep.Number.Text
import PagePrep.Text.Json

namespace PagePrep

-- One value of a document of settings. A number in the shorter format is written with the digits
-- that tell it apart there.
inductive Scalar where
  | none
  | bool (b : Bool)
  | nat (n : Nat)
  | single (x : Float32)
  | double (x : Float)
  | text (s : String)
deriving DecidableEq, Repr

abbrev Fields := List (String × Scalar)

-- The settings in the order in which they are written: named sections, and then those that belong
-- to no section.
structure Document where
  sections : List (String × Fields)
  others   : Fields := []
deriving DecidableEq, Repr

namespace Scalar

def toJson : Scalar → String
  | none     => "null"
  | bool b   => if b then "true" else "false"
  | nat n    => toString n
  | single x => NumberStyle.jsonSingle.single x
  | double x => NumberStyle.jsonDouble.double x
  | text s   => Json.quote s

-- TOML has no text for nothing, and integers of 64 bits with a sign.
def toToml? : Scalar → Option String
  | none     => .none
  | bool b   => some (if b then "true" else "false")
  | nat n    => if n < Value.signedBound then some (toString n) else .none
  | single x => some (NumberStyle.toml.double (widen x))
  | double x => some (NumberStyle.toml.double x)
  | text s   => some (Json.quote s)

end Scalar

namespace Document

def jsonObject (indent : String) (entries : List (String × String)) : String :=
  let lines := entries.map fun (name, value) => indent ++ "  " ++ Json.quote name ++ ": " ++ value
  "\x7b\n" ++ ",\n".intercalate lines ++ "\n" ++ indent ++ "\x7d"

def toJson (d : Document) : String :=
  let scalars (fields : Fields) := fields.map fun (name, value) => (name, value.toJson)
  let sections := d.sections.map fun (name, fields) => (name, jsonObject "  " (scalars fields))
  jsonObject "" (sections ++ scalars d.others)

-- The lines of the fields. A field without a value is left out.
def tomlFields? (fields : Fields) : Option String := do
  let given := fields.filter fun (_, value) => value ≠ .none
  let lines ← given.mapM tomlLine?
  return String.join lines
where
  tomlLine? (field : String × Scalar) : Option String :=
    field.2.toToml?.map fun text => field.1 ++ " = " ++ text ++ "\n"

def tomlSection? (part : String × Fields) : Option String :=
  (tomlFields? part.2).map fun text => "[" ++ part.1 ++ "]\n" ++ text

-- Fields of no section would come first. There is none if a number is too large for the format.
def toToml? (d : Document) : Option String := do
  let others ← tomlFields? d.others
  let sections ← d.sections.mapM tomlSection?
  return "\n".intercalate ((if others.isEmpty then [] else [others]) ++ sections)

end Document

end PagePrep
