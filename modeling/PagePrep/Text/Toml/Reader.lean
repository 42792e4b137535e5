import PagePrep.Text.Toml.Scalar
import PagePrep.Text.Toml.Table

namespace PagePrep.Toml

open Scan

def isBareKeyChar (c : Char) : Bool :=
  c.isAlphanum || c = '_' || c = '-'

def simpleKey? (cs : List Char) : Option (String × List Char) :=
  match cs with
  | '"' :: rest  => basic? (rest.length + 1) [] rest
  | '\'' :: rest => literal? rest
  | _            =>
    match cs.span isBareKeyChar with
    | ([], _)    => none
    | (key, rest) => some (.ofList key, rest)

-- Keys with dots between them, and the blanks around each. The last key is given by itself.
def key? : (fuel : Nat) → List Char → Option ((List String × String) × List Char)
  | 0,        _  => none
  | fuel + 1, cs => do
    let (key, rest) ← simpleKey? (skipBlanks cs)
    match skipBlanks rest with
    | '.' :: rest =>
      let ((path, last), rest) ← key? fuel rest
      return ((key :: path, last), rest)
    | rest => return (([], key), rest)

-- Values may be nested to this depth, and keys have as many parts.
def maxDepth : Nat := 80

mutual

-- `depth` is how much deeper a value may still be nested.
def value? : (fuel depth : Nat) → List Char → Option (Value × List Char)
  | 0,        _,     _  => none
  | fuel + 1, depth, cs =>
    match cs with
    | '[' :: rest =>
      match depth with
      | 0         => none
      | depth + 1 => (items? fuel depth rest).map fun (items, rest) => (.array items, rest)
    | '{' :: rest =>
      match depth with
      | 0         => none
      | depth + 1 =>
        match skipBlanks rest with
        | '}' :: rest => some (.table [], rest)
        | rest        => (pairs? fuel depth [] rest).map fun (entries, rest) =>
          (.table (toValues entries), rest)
    | _ => scalar? cs

-- The rest of an array. Its last item may have a comma behind it.
def items? : (fuel depth : Nat) → List Char → Option (List Value × List Char)
  | 0,        _,     _  => none
  | fuel + 1, depth, cs =>
    match skipLines cs.length cs with
    | ']' :: rest => some ([], rest)
    | rest        =>
      match value? fuel depth rest with
      | none              => none
      | some (item, rest) =>
        match skipLines rest.length rest with
        | ',' :: rest => (items? fuel depth rest).map fun (items, rest) => (item :: items, rest)
        | ']' :: rest => some ([item], rest)
        | _           => none

-- The rest of an inline table, of one line, from its next key on.
def pairs? : (fuel depth : Nat) → Entries → List Char → Option (Entries × List Char)
  | 0,        _,     _,       _  => none
  | fuel + 1, depth, entries, cs => do
    let ((path, key), rest) ← key? maxDepth.pred cs
    let rest ← word? ['='] rest
    let (v, rest) ← value? fuel depth (skipBlanks rest)
    let entries ← entries.assign path key v .header
    match skipBlanks rest with
    | ',' :: rest => pairs? fuel depth entries rest
    | '}' :: rest => return (entries, rest)
    | _           => none

end

-- One line of a text.
inductive Line where
  | blank
  | header (path : List String) (key : String)
  | itemHeader (path : List String) (key : String)
  | assign (path : List String) (key : String) (v : Value)

-- The line without its end.
def line? (cs : List Char) : Option (Line × List Char) :=
  match cs with
  | []                  => some (.blank, [])
  | '#' :: _            => some (.blank, cs)
  | '\n' :: _           => some (.blank, cs)
  | '\r' :: _           => some (.blank, cs)
  | '[' :: '[' :: rest  => do
    let ((path, key), rest) ← key? maxDepth.pred rest
    let rest ← word? [']', ']'] rest
    return (.itemHeader path key, rest)
  | '[' :: rest         => do
    let ((path, key), rest) ← key? maxDepth.pred rest
    let rest ← word? [']'] rest
    return (.header path key, rest)
  | _                   => do
    let ((path, key), rest) ← key? maxDepth.pred cs
    let rest ← word? ['='] rest
    let rest := skipBlanks rest
    let (v, rest) ← value? (rest.length + 1) maxDepth.pred rest
    return (.assign path key v, rest)

-- All tables so far, and the path of the table that is open.
structure Reader where
  root   : Entries
  opened : List String

namespace Reader

def add (r : Reader) : Line → Option Reader
  | .blank               => some r
  | .header path key     =>
    (r.root.openTable path key).map fun root => ⟨root, path ++ [key]⟩
  | .itemHeader path key =>
    (r.root.openItem path key).map fun root => ⟨root, path ++ [key]⟩
  | .assign path key v   =>
    (r.root.change false (Entries.assign path key v) r.opened .header).map fun root =>
      { r with root }

def lines? : (fuel : Nat) → Reader → List Char → Option Reader
  | 0,        _, _  => none
  | fuel + 1, r, cs => do
    let (line, rest) ← line? (skipBlanks cs)
    let r ← r.add line
    match ← lineEnd? rest with
    | []   => return r
    | rest => lines? fuel r rest

end Reader

-- The table that a whole text says. It may begin with a byte order mark.
def parse? (text : String) : Option Value :=
  let cs := match text.toList with
    | '\ufeff' :: rest => rest
    | cs               => cs
  (Reader.lines? (cs.length + 1) ⟨[], []⟩ cs).map fun r => .table (toValues r.root)

end PagePrep.Toml
