import ApiDocs.JavaType

/-!
# Declarations in Java sources

A source file declares classes, which declare fields, constructors, methods and further classes.  Names
in types are as written until they are resolved.
-/

namespace ApiDocs

structure Import where
  /-- The dotted name, without the `.*` of an import on demand. -/
  name : String
  isStatic : Bool
  onDemand : Bool
deriving DecidableEq

structure ParameterDeclaration where
  name : String
  type : JavaType

structure MethodDeclaration where
  name : String
  isConstructor : Bool
  containingClass : Option String
  /-- The texts of the modifiers, absent when the declaration has no list of them. -/
  modifiers : Option (List String)
  docComment : Option String
  typeParameters : List String
  /-- Absent for constructors. -/
  returnType : Option JavaType
  parameters : List ParameterDeclaration

structure FieldDeclaration where
  name : String
  containingClass : Option String
  modifiers : Option (List String)
  docComment : Option String
  type : JavaType

/-- A class, interface, enum, record or annotation type. -/
structure ClassDeclaration where
  name : String
  isAnnotationType : Bool
  isInterface : Bool
  isEnum : Bool
  isRecord : Bool
  modifiers : Option (List String)
  docComment : Option String
  typeParameters : List String
  /-- What the class extends and implements, in the order written. -/
  superTypes : List JavaType
  constructors : List MethodDeclaration
  methods : List MethodDeclaration
  fields : List FieldDeclaration
  innerClasses : List ClassDeclaration

structure SourceFile where
  path : String
  /-- Empty for the nameless package. -/
  packageName : String
  imports : List Import
  classes : List ClassDeclaration

end ApiDocs
