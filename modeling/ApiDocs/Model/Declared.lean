import ApiDocs.Comment.Block
import ApiDocs.Declaration
import ApiDocs.Model

/-!
# Documentation of declarations

The documentation of one pass over source files: every declaration becomes a part of the model, with the
platform of the pass on all that platforms may disagree on.  Each file has a package of its own.
-/

namespace ApiDocs

namespace PlatformInfo

/-- Documentation that holds for one platform. -/
def on (platform : PlatformData) (documentation : Documentation) : PlatformInfo :=
  ⟨documentation, [platform]⟩

end PlatformInfo

namespace Visibility

/-- The visibility that modifiers give: public before protected, and private without either. -/
def ofModifiers (modifiers : Option (List String)) : Visibility :=
  let listed := modifiers.getD []
  if "public" ∈ listed then publicAccess
  else if "protected" ∈ listed then protectedAccess
  else privateAccess

def keywords : List String :=
  ["public", "protected", "private"]

end Visibility

namespace VisibilityMap

/-- The visibility that modifiers give on one platform. -/
def on (platform : PlatformData) (modifiers : Option (List String)) : VisibilityMap :=
  .singleton platform (Visibility.ofModifiers modifiers)

end VisibilityMap

namespace Parameter

/-- The parameter at a place of a callable, counted from 1; its documentation is that of the tag for its
name in the comment of the callable. -/
def ofDeclaration (platform : PlatformData) (callable : Address) (documentation : Documentation)
    (place : Nat) (declared : ParameterDeclaration) : Parameter :=
  let own := ((documentation.param? declared.name).map Tag.description).toList
  { address := callable.withTarget place
    name := declared.name
    type := .ofType declared.type
    expected := none
    actual := [.on platform ⟨own⟩] }

end Parameter

namespace Function

/-- The address of a method or constructor of a class. -/
def addressOf (owner : Address) (declared : MethodDeclaration) : Address :=
  owner.withCallable
    { name := declared.name
      receiver := some ⟨declared.containingClass.getD ""⟩
      parameters := declared.parameters.map fun parameter => ⟨parameter.type.canonicalText⟩ }

def ofDeclaration (platform : PlatformData) (owner : Address) (isConstructor : Bool)
    (declared : MethodDeclaration) : Function :=
  let address := addressOf owner declared
  let documentation := Documentation.ofComment? declared.docComment
  { address
    name := if isConstructor then "<init>" else declared.name
    returnType := declared.returnType.map TypeUsage.ofType
    isConstructor
    receiver := none
    parameters := declared.parameters.mapIdx fun index parameter =>
      .ofDeclaration platform address documentation (index + 1) parameter
    expected := none
    actual := [.on platform documentation]
    visibility := .on platform declared.modifiers }

end Function

namespace Property

/-- The address of a field of a class: that of a callable without parameters. -/
def addressOf (owner : Address) (declared : FieldDeclaration) : Address :=
  owner.withCallable ⟨declared.name, some ⟨declared.containingClass.getD ""⟩, []⟩

def ofDeclaration (platform : PlatformData) (owner : Address) (declared : FieldDeclaration) : Property :=
  { address := addressOf owner declared
    name := declared.name
    type := some (.ofType declared.type)
    receiver := none
    expected := none
    actual := [.on platform (.ofComment? declared.docComment)]
    accessors := []
    visibility := .on platform declared.modifiers }

end Property

namespace ClassKind

/-- An annotation type is also an interface, and goes by the narrower kind. -/
def ofFlags (isAnnotationType isInterface isEnum : Bool) : ClassKind :=
  if isAnnotationType then annotationType
  else if isInterface then interfaceType
  else if isEnum then enumType
  else plainClass

end ClassKind

namespace Class

/-- The addresses of the super types that were found to be classes. -/
def inheritedAddresses (superTypes : List JavaType) : List Address :=
  superTypes.filterMap fun
    | .reference _ _ _ (.classNamed name) => some name.address
    | _ => none

/-- The modifiers that say nothing about visibility. -/
def extraModifiers (modifiers : Option (List String)) : SortedSet String :=
  .ofElements <| (modifiers.getD []).filter fun modifier => !Visibility.keywords.contains modifier

/-- The class declared inside the class or package at an address. -/
def ofDeclaration (platform : PlatformData) (outer : Address) : ClassDeclaration → Class
  | ⟨name, isAnnotationType, isInterface, isEnum, _, modifiers, docComment, _, superTypes, constructors,
      methods, fields, innerClasses⟩ =>
      let address := outer.inClass name
      { address
        name
        kind := .ofFlags isAnnotationType isInterface isEnum
        constructors := constructors.map (Function.ofDeclaration platform address true)
        functions := (methods.filter fun method => !method.isConstructor).map
          (Function.ofDeclaration platform address false)
        properties := fields.map (Property.ofDeclaration platform address)
        classes := ofDeclarations platform address innerClasses
        expected := none
        actual := [⟨.on platform (.ofComment? docComment), inheritedAddresses superTypes⟩]
        extra := extraModifiers modifiers
        visibility := .on platform modifiers }
where
  ofDeclarations (platform : PlatformData) (outer : Address) : List ClassDeclaration → List Class
    | [] => []
    | first :: rest => ofDeclaration platform outer first :: ofDeclarations platform outer rest

end Class

namespace Package

/-- The package of one file. -/
def ofFile (platform : PlatformData) (file : SourceFile) : Package :=
  let address := Address.ofPackage file.packageName
  { address
    name := file.packageName
    functions := []
    properties := []
    classes := file.classes.map (Class.ofDeclaration platform address) }

end Package

namespace Module

/-- The documentation of files on one platform. -/
def ofFiles (name : String) (platform : PlatformData) (files : List SourceFile) : Module :=
  ⟨name, files.map (Package.ofFile platform)⟩

end Module

end ApiDocs
