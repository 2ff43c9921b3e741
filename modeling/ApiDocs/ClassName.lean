import ApiDocs.Address
import ApiDocs.Text.Lines
import ApiDocs.Text.Uppercase

/-!
# Names of classes

A class is named by its package and by the names of the classes around it, from the outermost one down to
its own.
-/

namespace ApiDocs

structure ClassName where
  /-- Empty for the nameless package. -/
  packageName : String
  classNames : List String
deriving DecidableEq

namespace ClassName

/-- The names of the classes between dots. -/
def nesting (name : ClassName) : String :=
  String.intercalate "." name.classNames

/-- The dotted name; a class of the nameless package has no package part. -/
def dotted (name : ClassName) : String :=
  if name.packageName = "" then name.nesting else name.packageName ++ "." ++ name.nesting

def address (name : ClassName) : Address :=
  .ofClass name.packageName name.nesting

/-- The name of a class that stands inside this one, at the end of a chain of names. -/
def inside (name : ClassName) (names : List String) : ClassName :=
  { name with classNames := name.classNames ++ names }

def startsUppercase (segment : String) : Bool :=
  segment.toList.head?.any Text.isUppercase

/-- Read a dotted name by convention: its first upper-case segment is the outermost class, behind at least
one segment of a package. -/
def ofConvention? (dotted : String) : Option ClassName :=
  let segments := Text.fields '.' dotted
  let packageSegments := segments.takeWhile fun segment => !startsUppercase segment
  let classNames := segments.dropWhile fun segment => !startsUppercase segment
  if packageSegments = [] ∨ classNames = [] then none
  else some ⟨String.intercalate "." packageSegments, classNames⟩

end ClassName

end ApiDocs
