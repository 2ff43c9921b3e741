import ApiDocs.Path
import ApiDocs.SortedMap

/-!
# File systems

A file system holds files and directories at locations, which are the names that lead to them from the root.
A path is followed piece by piece from the working directory, or from the root if it is absolute.
-/

namespace ApiDocs

/-- Why an operation on files failed. -/
inductive FileError where
  | notFound
  | alreadyExists
  | notADirectory
  | isADirectory
  | nameTooLong
  /-- The bytes of the file are no UTF-8 text. -/
  | notText
deriving DecidableEq

namespace FileError

def message : FileError → String
  | notFound => "No such file or directory (os error 2)"
  | alreadyExists => "File exists (os error 17)"
  | notADirectory => "Not a directory (os error 20)"
  | isADirectory => "Is a directory (os error 21)"
  | nameTooLong => "File name too long (os error 36)"
  | notText => "stream did not contain valid UTF-8"

end FileError

/-- The names that lead from the root to a file or directory. -/
abbrev Location := List String

inductive FileEntry where
  | directory
  | file (content : ByteArray)

structure FileSystem where
  entries : SortedMap Location FileEntry
  workingDirectory : Location

namespace FileSystem

/-- What stands at a location; the root is always a directory. -/
def lookup? (system : FileSystem) (location : Location) : Option FileEntry :=
  if location = [] then some .directory else system.entries.get? location

def isDirectoryAt (system : FileSystem) (location : Location) : Bool :=
  match system.lookup? location with
  | some .directory => true
  | _ => false

/-- Only directories lead further. -/
def requireDirectory (system : FileSystem) (location : Location) : Except FileError Unit :=
  match system.lookup? location with
  | some .directory => .ok ()
  | some (.file _) => .error .notADirectory
  | none => .error .notFound

/-- The location behind one piece of a path; a name has at most 255 bytes. -/
def step (system : FileSystem) (location : Location) (piece : String) : Except FileError Location := do
  system.requireDirectory location
  if piece = "" ∨ piece = "." then return location
  else if piece = ".." then return location.dropLast
  else if piece.utf8ByteSize > 255 then throw .nameTooLong
  else return location ++ [piece]

/-- The location that a path leads to, at which there may be nothing yet; a path has fewer than 4096
bytes. -/
def locate (system : FileSystem) (path : Path) : Except FileError Location :=
  if path = "" then .error .notFound
  else if path.utf8ByteSize ≥ 4096 then .error .nameTooLong
  else
    let start := if Path.isAbsolute path then [] else system.workingDirectory
    (path.toList.splitOn '/').foldlM (fun location piece => system.step location (String.ofList piece)) start

/-- What stands at the end of a path. -/
def find (system : FileSystem) (path : Path) : Except FileError FileEntry := do
  match system.lookup? (← system.locate path) with
  | some entry => return entry
  | none => throw .notFound

def isPresent (system : FileSystem) (path : Path) : Bool :=
  (system.find path).toOption.isSome

def isDirectory (system : FileSystem) (path : Path) : Bool :=
  match system.find path with
  | .ok .directory => true
  | _ => false

/-- The bytes of a file. -/
def read (system : FileSystem) (path : Path) : Except FileError ByteArray := do
  match ← system.find path with
  | .file content => return content
  | .directory => throw .isADirectory

/-- The text of a file. -/
def readText (system : FileSystem) (path : Path) : Except FileError String := do
  match String.fromUTF8? (← system.read path) with
  | some text => return text
  | none => throw .notText

/-- The file system with an entry at a location. -/
def put (system : FileSystem) (location : Location) (entry : FileEntry) : FileSystem :=
  { system with entries := system.entries.insert location entry }

/-- An entry is found where it was put; the root stays a directory. -/
theorem lookup?_put_self (system : FileSystem) {location : Location} (entry : FileEntry)
    (inside : location ≠ []) : (system.put location entry).lookup? location = some entry := by
  simp [lookup?, put, inside, SortedMap.get?_insert_self]

/-- Nothing changes at other locations. -/
theorem lookup?_put_of_ne (system : FileSystem) {location other : Location} (entry : FileEntry)
    (different : other ≠ location) : (system.put location entry).lookup? other = system.lookup? other := by
  simp [lookup?, put, SortedMap.get?_insert_of_ne _ _ different]

/-- Write a file in a directory that exists. -/
def write (system : FileSystem) (path : Path) (content : ByteArray) : Except FileError FileSystem := do
  let location ← system.locate path
  if system.isDirectoryAt location then throw .isADirectory
  else return system.put location (.file content)

def writeText (system : FileSystem) (path : Path) (text : String) : Except FileError FileSystem :=
  system.write path text.toUTF8

/-- Make one directory in a directory that exists. -/
def makeDirectory (system : FileSystem) (path : Path) : Except FileError FileSystem := do
  let location ← system.locate path
  match system.lookup? location with
  | some _ => throw .alreadyExists
  | none => return system.put location .directory

/-- The path of a list of components. -/
def pathOf (components : List Path.Component) : Path :=
  components.foldl (fun path component => Path.join path (match component with
    | .root => "/"
    | .here => "."
    | .parent => ".."
    | .named name => name)) ""

/-- Make the directory whose path has the given components in reverse, and those above it that are
missing.  What has been made stays even if the last directory cannot be made. -/
def makeDirectoriesTo (system : FileSystem) :
    List Path.Component → FileSystem × Except FileError Unit
  | [] => (system, .ok ())
  | last :: above =>
      let path := pathOf (last :: above).reverse
      let accept (held : FileSystem) (reason : FileError) : Except FileError Unit :=
        if held.isDirectory path then .ok () else .error reason
      match system.makeDirectory path with
      | .ok made => (made, .ok ())
      | .error .notFound =>
          match makeDirectoriesTo system above with
          | (prepared, .error reason) => (prepared, .error reason)
          | (prepared, .ok ()) =>
              match prepared.makeDirectory path with
              | .ok made => (made, .ok ())
              | .error reason => (prepared, accept prepared reason)
      | .error reason => (system, accept system reason)

/-- Make a directory and those above it that are missing; one that exists is left as it is. -/
def makeDirectories (system : FileSystem) (path : Path) : FileSystem × Except FileError Unit :=
  system.makeDirectoriesTo (Path.components path).reverse

/-- Write a file, making the directories above it that are missing. -/
def writeBelow (system : FileSystem) (path : Path) (content : ByteArray) :
    FileSystem × Except FileError Unit :=
  match system.makeDirectoriesTo (Path.components path).dropLast.reverse with
  | (prepared, .error reason) => (prepared, .error reason)
  | (prepared, .ok ()) =>
      match prepared.write path content with
      | .ok written => (written, .ok ())
      | .error reason => (prepared, .error reason)

/-- Remove a file. -/
def remove (system : FileSystem) (path : Path) : Except FileError FileSystem := do
  let location ← system.locate path
  match system.lookup? location with
  | some (.file _) => return { system with entries := system.entries.erase location }
  | some .directory => throw .isADirectory
  | none => throw .notFound

/-- The files below a location, each by the names that lead to it from there. -/
def filesBelow (system : FileSystem) (location : Location) : List Location :=
  system.entries.entries.filterMap fun (place, entry) =>
    match entry with
    | .file _ => if location.isPrefixOf place then some (place.drop location.length) else none
    | .directory => none

end FileSystem

end ApiDocs
