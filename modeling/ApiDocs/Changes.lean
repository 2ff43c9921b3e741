import ApiDocs.FileSystem
import ApiDocs.Markdown.Page
import ApiDocs.Sha256
import ApiDocs.Text.Lines

/-!
# Changes of outputs

Rendered files are compared with those that are already there, by the digests of their contents without
front matter.
-/

namespace ApiDocs

/-- The text behind the first line feed, three dashes and line feed in a text. -/
def afterFence? : List Char → Option (List Char)
  | [] => none
  | char :: rest =>
      match Text.withoutHead? ['\n', '-', '-', '-', '\n'] (char :: rest) with
      | some after => some after
      | none => afterFence? rest

/-- A content without its front matter and the line feeds behind that; front matter without an end is
content. -/
def stripFrontMatter (content : List Char) : List Char :=
  match Text.withoutHead? ['-', '-', '-', '\n'] content with
  | none => content
  | some rest =>
      match afterFence? rest with
      | some body => body.dropWhile (· = '\n')
      | none => content

/-- The digest of a content without its front matter. -/
def contentDigest (content : String) : String :=
  Sha256.hexDigest (String.ofList (stripFrontMatter content.toList))

def hasContentChanged (existing rendered : String) : Bool :=
  contentDigest existing != contentDigest rendered

/-- How a rendered file compares with what is there. -/
inductive FileStatus where
  | added
  | modified
  | unchanged
deriving DecidableEq

/-- Rendered files with their statuses, in the order of rendering. -/
structure Changes where
  statuses : List (Path × FileStatus)

namespace Changes

def withStatus (changes : Changes) (status : FileStatus) : List Path :=
  (changes.statuses.filter fun entry => entry.2 == status).map Prod.fst

def added (changes : Changes) : List Path :=
  changes.withStatus .added

def modified (changes : Changes) : List Path :=
  changes.withStatus .modified

def unchanged (changes : Changes) : List Path :=
  changes.withStatus .unchanged

/-- How many files are added or modified. -/
def count (changes : Changes) : Nat :=
  changes.added.length + changes.modified.length

/-- Whether a file at a path is added or modified; paths with the same components are the same. -/
def includes (changes : Changes) (path : Path) : Bool :=
  (changes.added ++ changes.modified).any fun changed =>
    Path.components changed == Path.components path

/-- The status of a rendered file in an output directory. -/
def statusOf (system : FileSystem) (directory : Path) (file : RenderedFile) :
    Except FileError FileStatus := do
  let target := Path.join directory file.path
  if system.isPresent target then
    let existing ← system.readText target
    return if hasContentChanged existing file.content then .modified else .unchanged
  else return .added

/-- Compare rendered files with those in an output directory. -/
def between (system : FileSystem) (directory : Path) (files : List RenderedFile) :
    Except FileError Changes := do
  let statuses ← files.mapM fun file => do return (file.path, ← statusOf system directory file)
  return ⟨statuses⟩

end Changes

end ApiDocs
