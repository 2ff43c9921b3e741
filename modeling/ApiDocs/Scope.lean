import ApiDocs.ClassIndex

/-!
# Looking up names

A written name means a type parameter or a class, depending on where it stands.  A class is searched among
the members of the enclosing classes, the imports, the package and `java.lang`, and at last by the whole
name.
-/

namespace ApiDocs

/-- The surroundings of a written name. -/
structure Scope where
  packageName : String
  imports : List Import
  /-- The names of the enclosing classes, innermost first. -/
  enclosing : List String
  typeParameters : List String

namespace ClassIndex

/-- The class that a whole dotted name means: an indexed one, or one by convention. -/
def qualified? (index : ClassIndex) (dotted : String) : Option ClassName :=
  (index.find? dotted).or (ClassName.ofConvention? dotted)

/-- The member class with a simple name of the innermost enclosing class that has one. -/
def member? (index : ClassIndex) (packageName simpleName : String) : List String → Option ClassName
  | [] => none
  | inner :: outer =>
      (index.lookup? ⟨packageName, (inner :: outer).reverse ++ [simpleName]⟩).or
        (member? index packageName simpleName outer)

/-- The first class that an import of a single type gives a simple name to. -/
def imported? (index : ClassIndex) (simpleName : String) (imports : List Import) : Option ClassName :=
  imports.findSome? fun candidate =>
    if !candidate.onDemand && JavaType.lastSegment candidate.name == simpleName then
      index.qualified? candidate.name
    else none

/-- The first class with a simple name in what imports on demand name. -/
def importedOnDemand? (index : ClassIndex) (simpleName : String) (imports : List Import) :
    Option ClassName :=
  imports.findSome? fun candidate =>
    if candidate.onDemand then index.find? (candidate.name ++ "." ++ simpleName) else none

/-- The class that a simple name means in a scope. -/
def simple? (index : ClassIndex) (scope : Scope) (simpleName : String) : Option ClassName :=
  (index.member? scope.packageName simpleName scope.enclosing).or <|
  (index.imported? simpleName scope.imports).or <|
  (index.lookup? ⟨scope.packageName, [simpleName]⟩).or <|
  (index.importedOnDemand? simpleName scope.imports).or <|
  index.lookup? ⟨"java.lang", [simpleName]⟩

/-- The class that a name of segments means in a scope: its first segment is looked up as a simple name,
and the others are classes inside; failing that, a qualified name is taken as a whole. -/
def class? (index : ClassIndex) (scope : Scope) (written first : String) (rest : List String) :
    Option ClassName :=
  match index.simple? scope first with
  | some found => some (found.inside rest)
  | none => if rest = [] then none else index.qualified? written

/-- What a written name means in a scope. -/
def meaning (index : ClassIndex) (scope : Scope) (written : String) : Resolution :=
  match Text.fields '.' written with
  | [] => .unresolved
  | first :: rest =>
      if rest = [] ∧ first ∈ scope.typeParameters then .typeParameter
      else match index.class? scope written first rest with
        | some found => .classNamed found
        | none => .unresolved

end ClassIndex

end ApiDocs
