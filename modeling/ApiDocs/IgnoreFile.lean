import ApiDocs.FileSystem
import ApiDocs.IgnoreRule

/-!
# Ignore files

The `.ignore` files of the directories above a file or directory say whether it is ignored, the nearest
file that speaks about it before the others.  If none does, the ignore files of a repository do, but only
those inside the innermost repository.
-/

namespace ApiDocs

namespace IgnoreRule

/-- The lines of a file, up to the first one that is no text. -/
def readableLines (content : ByteArray) : List (List Char) :=
  let decode (line : List UInt8) := (String.fromUTF8? ⟨line.toArray⟩).map String.toList
  let pieces := content.toList.splitOn '\n'.toUInt8
  let lines := pieces.dropLast.map (fun line => (decode line).map Text.dropReturn) ++
    pieces.getLast?.toList.map decode
  (lines.takeWhile Option.isSome).reduceOption

/-- The rules of an ignore file.  A byte order mark does not count, and a line that is no glob is left
out. -/
def ofContent (content : ByteArray) : List IgnoreRule :=
  let lines := match readableLines content with
    | [] => []
    | first :: rest => first.dropWhile (· = '\uFEFF') :: rest
  lines.filterMap fun line => (ofLine true line).toOption.join

end IgnoreRule

namespace FileSystem

/-- The rules of the ignore file at a location; without a file there are none. -/
def ignoreRules (system : FileSystem) (location : Location) : List IgnoreRule :=
  match system.lookup? location with
  | some (.file content) => IgnoreRule.ofContent content
  | _ => []

/-- The directories above a location, the nearest first. -/
def directoriesAbove (location : Location) : List Location :=
  (List.range location.length).reverse.map location.take

/-- What the nearest of the ignore files that speaks about a location says.  The files stand at one place
in each directory. -/
def verdictAt? (system : FileSystem) (place : Location) (directories : List Location)
    (location : Location) (isDirectory : Bool) : Option Verdict :=
  directories.findSome? fun directory =>
    let path := String.intercalate "/" (location.drop directory.length)
    IgnoreRule.verdict? (system.ignoreRules (directory ++ place)) path isDirectory

/-- The directories up to the innermost one that holds a repository; outside of repositories there are
none. -/
def withinRepository (system : FileSystem) : List Location → List Location
  | [] => []
  | directory :: above =>
      if (system.lookup? (directory ++ [".git"])).isSome then [directory]
      else match system.withinRepository above with
        | [] => []
        | first :: rest => directory :: first :: rest

/-- Whether ignore files leave out what stands at a location. -/
def isIgnored (system : FileSystem) (location : Location) (isDirectory : Bool) : Bool :=
  let directories := directoriesAbove location
  let repository := system.withinRepository directories
  let verdict :=
    system.verdictAt? [".ignore"] directories location isDirectory <|>
    system.verdictAt? [".gitignore"] repository location isDirectory <|>
    system.verdictAt? [".git", "info", "exclude"] repository location isDirectory
  verdict == some .ignored

end FileSystem

end ApiDocs
