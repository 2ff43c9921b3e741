import ApiDocs.ClassIndex.WellKnown
import ApiDocs.Declaration
import ApiDocs.SortedMap

/-!
# The index of classes

The index holds every class that can be referred to, under its dotted name.  It starts with the well-known
classes, and of two classes with one dotted name the later stays.
-/

namespace ApiDocs

namespace ClassDeclaration

/-- The chains of names of a class and of the classes inside it, an outer class before its inner ones. -/
def nestedNames (outer : List String) : ClassDeclaration → List (List String)
  | ⟨name, _, _, _, _, _, _, _, _, _, _, _, innerClasses⟩ =>
      (outer ++ [name]) :: inAll (outer ++ [name]) innerClasses
where
  inAll (outer : List String) : List ClassDeclaration → List (List String)
    | [] => []
    | first :: rest => nestedNames outer first ++ inAll outer rest

end ClassDeclaration

namespace SourceFile

/-- The names of all classes that a file declares. -/
def declaredNames (file : SourceFile) : List ClassName :=
  (file.classes.flatMap (ClassDeclaration.nestedNames [])).map fun names => ⟨file.packageName, names⟩

end SourceFile

structure ClassIndex where
  classes : SortedMap String ClassName

namespace ClassIndex

def insert (index : ClassIndex) (name : ClassName) : ClassIndex :=
  ⟨index.classes.insert name.dotted name⟩

def insertAll (index : ClassIndex) (names : List ClassName) : ClassIndex :=
  names.foldl insert index

/-- The index of the well-known classes. -/
def wellKnown : ClassIndex :=
  insertAll ⟨.empty⟩ ClassName.wellKnown

/-- The index with the classes of a file. -/
def addFile (index : ClassIndex) (file : SourceFile) : ClassIndex :=
  index.insertAll file.declaredNames

/-- The index of the well-known classes and of the classes of files. -/
def ofFiles (files : List SourceFile) : ClassIndex :=
  files.foldl addFile wellKnown

/-- The class with a dotted name. -/
def find? (index : ClassIndex) (dotted : String) : Option ClassName :=
  index.classes.get? dotted

/-- The class with the dotted name of a package and a chain of names. -/
def lookup? (index : ClassIndex) (name : ClassName) : Option ClassName :=
  index.find? name.dotted

/-- How many classes the index holds. -/
def size (index : ClassIndex) : Nat :=
  index.classes.entries.length

end ClassIndex

end ApiDocs
