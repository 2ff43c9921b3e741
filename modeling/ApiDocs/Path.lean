/-!
# Paths

A path is a text of names between slashes.  Its components leave out repeated slashes and the dots inside
it, and paths are compared and ordered by their components.
-/

namespace ApiDocs

abbrev Path := String

namespace Path

/-- A component of a path; a component of a sort listed earlier is ordered before one of a later sort. -/
inductive Component where
  | root
  | here
  | parent
  | named (name : String)
deriving DecidableEq, Ord

def isAbsolute (path : Path) : Bool :=
  path.toList.head? == some '/'

/-- The path of a second path below a first one; an absolute one stays as it is. -/
def join (base path : Path) : Path :=
  if isAbsolute path then path
  else if base = "" ∨ base.toList.getLast? = some '/' then base ++ path
  else base ++ "/" ++ path

/-- The component that a piece between slashes stands for; only at the start does a dot count. -/
def componentOf? (isFirst : Bool) (piece : List Char) : Option Component :=
  match String.ofList piece with
  | "" => none
  | "." => if isFirst then some .here else none
  | ".." => some .parent
  | name => some (.named name)

def components (path : Path) : List Component :=
  match path.toList.splitOn '/' with
  | [] => []
  | first :: rest =>
      let start := if isAbsolute path then some .root else componentOf? true first
      start.toList ++ rest.filterMap (componentOf? false)

/-- The name of the file or directory at a path that ends in a name. -/
def fileName? (path : Path) : Option String :=
  match (components path).getLast? with
  | some (.named name) => some name
  | _ => none

/-- What stands behind the last dot of the file name, unless the name has no other dot than its first
character. -/
def extension? (path : Path) : Option String := do
  let name ← fileName? path
  let (reversed, rest) := name.toList.reverse.span (· ≠ '.')
  match rest with
  | _ :: _ :: _ => some (String.ofList reversed.reverse)
  | _ => none

end Path

end ApiDocs
