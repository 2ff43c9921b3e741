import ApiDocs.Scope

/-!
# Resolving declarations

Every class reference in a declaration gets the meaning of its name where it stands.  Nothing else
changes.
-/

namespace ApiDocs

namespace ParameterDeclaration

def resolve (meaning : String → Resolution) (parameter : ParameterDeclaration) : ParameterDeclaration :=
  { parameter with type := parameter.type.resolve meaning }

end ParameterDeclaration

namespace FieldDeclaration

def resolve (meaning : String → Resolution) (field : FieldDeclaration) : FieldDeclaration :=
  { field with type := field.type.resolve meaning }

end FieldDeclaration

namespace Scope

/-- The scope inside a class. -/
def enter (scope : Scope) (name : String) (typeParameters : List String) : Scope :=
  { scope with
    enclosing := name :: scope.enclosing
    typeParameters := scope.typeParameters ++ typeParameters }

/-- The scope inside a method. -/
def withTypeParameters (scope : Scope) (typeParameters : List String) : Scope :=
  { scope with typeParameters := scope.typeParameters ++ typeParameters }

end Scope

namespace MethodDeclaration

def resolve (index : ClassIndex) (scope : Scope) (method : MethodDeclaration) : MethodDeclaration :=
  let meaning := index.meaning (scope.withTypeParameters method.typeParameters)
  { method with
    returnType := method.returnType.map (JavaType.resolve meaning)
    parameters := method.parameters.map (ParameterDeclaration.resolve meaning) }

end MethodDeclaration

namespace ClassDeclaration

/-- The scope in which the types of a class and of its members are looked up holds the class itself. -/
def resolve (index : ClassIndex) (outer : Scope) : ClassDeclaration → ClassDeclaration
  | ⟨name, isAnnotationType, isInterface, isEnum, isRecord, modifiers, docComment, typeParameters,
      superTypes, constructors, methods, fields, innerClasses⟩ =>
      let scope := outer.enter name typeParameters
      { name, isAnnotationType, isInterface, isEnum, isRecord, modifiers, docComment, typeParameters
        superTypes := superTypes.map (JavaType.resolve (index.meaning scope))
        constructors := constructors.map (MethodDeclaration.resolve index scope)
        methods := methods.map (MethodDeclaration.resolve index scope)
        fields := fields.map (FieldDeclaration.resolve (index.meaning scope))
        innerClasses := resolveAll scope innerClasses }
where
  resolveAll (scope : Scope) : List ClassDeclaration → List ClassDeclaration
    | [] => []
    | first :: rest => resolve index scope first :: resolveAll scope rest

end ClassDeclaration

namespace SourceFile

/-- The scope of a file's outermost classes. -/
def scope (file : SourceFile) : Scope :=
  ⟨file.packageName, file.imports, [], []⟩

def resolve (index : ClassIndex) (file : SourceFile) : SourceFile :=
  { file with classes := file.classes.map (ClassDeclaration.resolve index file.scope) }

end SourceFile

end ApiDocs
