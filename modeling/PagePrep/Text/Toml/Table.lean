import PagePrep.Text.Value

namespace PagePrep.Toml

-- How a table came to be. Only a table that a longer header implied may still get its own header,
-- and only a table made by a dotted key may get more entries through dotted keys.
inductive Origin where
  | header
  | implied
  | dotted
deriving DecidableEq

-- An entry of a table that is being built.
inductive Node where
  -- A complete value. Inline tables and arrays are complete.
  | value (v : Value)
  | table (origin : Origin) (entries : List (String × Node))
  -- The tables of all headers in double brackets with one name.
  | tables (items : List (List (String × Node)))

abbrev Entries := List (String × Node)

namespace Entries

def find? (entries : Entries) (key : String) : Option Node :=
  entries.lookup key

def add (entries : Entries) (key : String) (node : Node) : Entries :=
  entries ++ [(key, node)]

def replace (entries : Entries) (key : String) (node : Node) : Entries :=
  entries.map fun entry => if entry.1 = key then (key, node) else entry

-- Changes the table at the end of a path, where `change` is told how that table came to be. Tables
-- that are missing on the way are made; in an array of tables the way goes on in the last one.
def change (viaDots : Bool) (f : Origin → Entries → Option Entries) :
    (path : List String) → Origin → Entries → Option Entries
  | [],          origin, entries => f origin entries
  | key :: rest, _,      entries =>
    match entries.find? key with
    | none =>
      let origin := if viaDots then .dotted else .implied
      (change viaDots f rest origin []).map fun sub => entries.add key (.table origin sub)
    | some (.table origin sub) =>
      if viaDots ∧ origin = .header then
        none
      else
        (change viaDots f rest origin sub).map fun sub => entries.replace key (.table origin sub)
    | some (.tables items) =>
      match items.getLast? with
      | none      => none
      | some last => (change viaDots f rest .header last).map fun last =>
        entries.replace key (.tables (items.dropLast ++ [last]))
    | some (.value _) => none

-- Gives a key its value. A key that dots lead to belongs to a table that dots have made.
def assign (path : List String) (key : String) (v : Value) (origin : Origin) (entries : Entries) :
    Option Entries :=
  change true (fun origin entries =>
    if (origin = .dotted) ↔ path = [] then none
    else if (entries.find? key).isSome then none
    else some (entries.add key (.value v))) path origin entries

-- Opens the table of a header.
def openTable (path : List String) (key : String) (entries : Entries) : Option Entries :=
  change false (fun _ entries =>
    match entries.find? key with
    | none                       => some (entries.add key (.table .header []))
    | some (.table .implied sub) => some (entries.replace key (.table .header sub))
    | some _                     => none) path .header entries

-- Opens one more table of a header in double brackets.
def openItem (path : List String) (key : String) (entries : Entries) : Option Entries :=
  change false (fun _ entries =>
    match entries.find? key with
    | none                => some (entries.add key (.tables [[]]))
    | some (.tables items) => some (entries.replace key (.tables (items ++ [[]])))
    | some _              => none) path .header entries

end Entries

mutual

def Node.toValue : Node → Value
  | .value v         => v
  | .table _ entries => .table (toValues entries)
  | .tables items    => .array (toTables items)

def toValues : List (String × Node) → List (String × Value)
  | []                  => []
  | (key, node) :: rest => (key, node.toValue) :: toValues rest

def toTables : List (List (String × Node)) → List Value
  | []              => []
  | entries :: rest => .table (toValues entries) :: toTables rest

end

end PagePrep.Toml
