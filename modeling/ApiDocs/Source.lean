import ApiDocs.Failure
import ApiDocs.IgnoreFile
import ApiDocs.Sha256
import ApiDocs.SyntaxTree.Declarations

/-!
# Sources

The sources of a pass are the Java files below its roots that neither the exclusion patterns nor ignore
files leave out.  What is left out is left out with all that is below it.
-/

namespace ApiDocs

namespace FileSystem

/-- Whether something below a root, given by the names that lead to it, is left out. -/
def isLeftOut (system : FileSystem) (exclusions : List IgnoreRule) (root names : Location)
    (isDirectory : Bool) : Bool :=
  exclusions.any (fun rule => rule.applies (String.intercalate "/" names) isDirectory) ||
    system.isIgnored (root ++ names) isDirectory

/-- Whether a file below a root is kept: neither it nor a directory on the way to it is left out. -/
def isKept (system : FileSystem) (exclusions : List IgnoreRule) (root names : Location) : Bool :=
  (List.range names.length).all fun count =>
    !system.isLeftOut exclusions root (names.take (count + 1)) (count + 1 < names.length)

/-- The files below a root that are kept, in ascending order; a root that is a file is kept. -/
def filesKept (system : FileSystem) (exclusions : List IgnoreRule) (root : Location) : List Location :=
  (system.filesBelow root).filter (system.isKept exclusions root)

end FileSystem

/-- A source file that has been read: its declarations and the digest of its text. -/
structure Source where
  file : SourceFile
  digest : String

namespace Source

def isSourcePath (path : Path) : Bool :=
  Path.extension? path == some "java"

/-- Read a source file that is not larger than allowed. -/
def read (syntaxOf : String → SyntaxNode) (maxFileSize : Nat) (system : FileSystem) (path : Path) :
    Except Failure Source := do
  let text ← (system.readText path).mapError Failure.access
  if maxFileSize < text.utf8ByteSize then throw (.tooLarge path)
  if !isSourcePath path then throw (.noSource path)
  return ⟨SourceFile.ofSyntax path (syntaxOf text), Sha256.hexDigest text⟩

/-- The rules of exclusion patterns. -/
def exclusions (patterns : List String) : Except Failure (List IgnoreRule) :=
  (IgnoreRule.ofPatterns patterns).mapError fun (pattern, reason) =>
    .exclusion pattern (String.ofList (IgnoreRule.exclusionLine pattern)) reason

/-- Read the source files below a root.  Files that cannot be read or are too large are passed over. -/
def readBelow (syntaxOf : String → SyntaxNode) (patterns : List String) (maxFileSize : Nat)
    (system : FileSystem) (root : Path) : Except Failure (List Source) := do
  if !system.isPresent root then throw (.missingRoot root)
  let rules ← exclusions patterns
  let location ← (system.locate root).mapError Failure.access
  let paths := (system.filesKept rules location).map fun names => names.foldl Path.join root
  return (paths.filter isSourcePath).filterMap fun path =>
    (read syntaxOf maxFileSize system path).toOption

end Source

end ApiDocs
