namespace PagePrep

-- The names on the way down from the root to a file or directory.
abbrev Place := List String

namespace Place

-- Where a name in a path leads. The root is its own parent.
def step (place : Place) (name : String) : Place :=
  if name = "" ∨ name = "." then place
  else if name = ".." then place.dropLast
  else place ++ [name]

end Place

-- Paths are kept as they are given, since messages show them. Names in them are separated by
-- slashes.
namespace Path

def splitNames (cs : List Char) : List (List Char) :=
  cs.foldr (fun c names =>
    match names with
    | []           => []
    | name :: rest => if c = '/' then [] :: name :: rest else (c :: name) :: rest) [[]]

-- All names, among them an empty one next to every slash that has none.
def names (path : String) : List String :=
  (splitNames path.toList).map String.ofList

def isAbsolute (path : String) : Bool :=
  path.toList.head? = some '/'

def longestName : Nat := 255

def longestPath : Nat := 4095

-- No file has a path that is empty, contains a zero character or is too long.
def isUsable (path : String) : Bool :=
  path ≠ "" && !path.toList.contains '\x00' && path.utf8ByteSize ≤ longestPath &&
    (names path).all fun name => name.utf8ByteSize ≤ longestName

-- The name of the file that a path leads to. Empty names and dots at the end do not count.
def fileName? (path : String) : Option String :=
  match ((names path).filter fun name => name ≠ "" ∧ name ≠ ".").getLast? with
  | some ".." => none
  | name      => name

-- What follows the last dot of the file's name. A dot in front of the whole name does not count.
def extension? (path : String) : Option String := do
  let name ← fileName? path
  let (tail, rest) := name.toList.reverse.span (· ≠ '.')
  if rest.length ≤ 1 then none else some (.ofList tail.reverse)

def join (directory name : String) : String :=
  if directory = "" ∨ directory.toList.getLast? = some '/' then directory ++ name
  else directory ++ "/" ++ name

end Path

end PagePrep
