import ApiDocs.Declaration
import ApiDocs.JavaType.Json

/-!
# Declarations in JSON
-/

namespace ApiDocs

namespace Import

def toJson (imported : Import) : Json :=
  .object
    [("name", .string imported.name),
     ("is_static", .bool imported.isStatic),
     ("on_demand", .bool imported.onDemand)]

def ofJson? (json : Json) : Option Import := do
  match ← json.record? ["name", "is_static", "on_demand"] with
  | [name, isStatic, onDemand] => return ⟨← name.string?, ← isStatic.bool?, ← onDemand.bool?⟩
  | _ => none

end Import

namespace ParameterDeclaration

def toJson (parameter : ParameterDeclaration) : Json :=
  .object [("name", .string parameter.name), ("type_", parameter.type.toJson)]

def ofJson? (json : Json) : Option ParameterDeclaration := do
  match ← json.record? ["name", "type_"] with
  | [name, type] => return ⟨← name.string?, ← JavaType.ofJson? type⟩
  | _ => none

end ParameterDeclaration

namespace MethodDeclaration

def toJson (method : MethodDeclaration) : Json :=
  .object
    [("name", .string method.name),
     ("is_constructor", .bool method.isConstructor),
     ("containing_class", .ofOption .string method.containingClass),
     ("modifiers", .ofOption .strings method.modifiers),
     ("doc_comment", .ofOption .string method.docComment),
     ("type_parameters", .strings method.typeParameters),
     ("return_type", .ofOption JavaType.toJson method.returnType),
     ("parameters", .ofList ParameterDeclaration.toJson method.parameters)]

def memberNames : List String :=
  ["name", "is_constructor", "containing_class", "modifiers", "doc_comment", "type_parameters",
    "return_type", "parameters"]

def ofJson? (json : Json) : Option MethodDeclaration := do
  match ← json.record? memberNames with
  | [name, isConstructor, containingClass, modifiers, docComment, typeParameters, returnType,
      parameters] =>
      return {
        name := ← name.string?
        isConstructor := ← isConstructor.bool?
        containingClass := ← containingClass.optional? Json.string?
        modifiers := ← modifiers.optional? Json.strings?
        docComment := ← docComment.optional? Json.string?
        typeParameters := ← typeParameters.strings?
        returnType := ← returnType.optional? JavaType.ofJson?
        parameters := ← parameters.list? ParameterDeclaration.ofJson? }
  | _ => none

end MethodDeclaration

namespace FieldDeclaration

def toJson (field : FieldDeclaration) : Json :=
  .object
    [("name", .string field.name),
     ("containing_class", .ofOption .string field.containingClass),
     ("modifiers", .ofOption .strings field.modifiers),
     ("doc_comment", .ofOption .string field.docComment),
     ("type_", field.type.toJson)]

def ofJson? (json : Json) : Option FieldDeclaration := do
  match ← json.record? ["name", "containing_class", "modifiers", "doc_comment", "type_"] with
  | [name, containingClass, modifiers, docComment, type] =>
      return {
        name := ← name.string?
        containingClass := ← containingClass.optional? Json.string?
        modifiers := ← modifiers.optional? Json.strings?
        docComment := ← docComment.optional? Json.string?
        type := ← JavaType.ofJson? type }
  | _ => none

end FieldDeclaration

namespace ClassDeclaration

def toJson : ClassDeclaration → Json
  | ⟨name, isAnnotationType, isInterface, isEnum, isRecord, modifiers, docComment, typeParameters,
      superTypes, constructors, methods, fields, innerClasses⟩ =>
      .object
        [("name", .string name),
         ("is_annotation_type", .bool isAnnotationType),
         ("is_interface", .bool isInterface),
         ("is_enum", .bool isEnum),
         ("is_record", .bool isRecord),
         ("modifiers", .ofOption .strings modifiers),
         ("doc_comment", .ofOption .string docComment),
         ("type_parameters", .strings typeParameters),
         ("super_types", .ofList JavaType.toJson superTypes),
         ("constructors", .ofList MethodDeclaration.toJson constructors),
         ("methods", .ofList MethodDeclaration.toJson methods),
         ("fields", .ofList FieldDeclaration.toJson fields),
         ("inner_classes", .array (toJsons innerClasses))]
where
  toJsons : List ClassDeclaration → List Json
    | [] => []
    | first :: rest => toJson first :: toJsons rest

def memberNames : List String :=
  ["name", "is_annotation_type", "is_interface", "is_enum", "is_record", "modifiers", "doc_comment",
    "type_parameters", "super_types", "constructors", "methods", "fields", "inner_classes"]

/-- Read a class whose JSON form nests no deeper than the budget. -/
def ofJsonWithin? : Nat → Json → Option ClassDeclaration
  | 0, _ => none
  | budget + 1, json => do
      match ← json.record? memberNames with
      | [name, isAnnotationType, isInterface, isEnum, isRecord, modifiers, docComment, typeParameters,
          superTypes, constructors, methods, fields, innerClasses] =>
          return {
            name := ← name.string?
            isAnnotationType := ← isAnnotationType.bool?
            isInterface := ← isInterface.bool?
            isEnum := ← isEnum.bool?
            isRecord := ← isRecord.bool?
            modifiers := ← modifiers.optional? Json.strings?
            docComment := ← docComment.optional? Json.string?
            typeParameters := ← typeParameters.strings?
            superTypes := ← superTypes.list? JavaType.ofJson?
            constructors := ← constructors.list? MethodDeclaration.ofJson?
            methods := ← methods.list? MethodDeclaration.ofJson?
            fields := ← fields.list? FieldDeclaration.ofJson?
            innerClasses := ← innerClasses.list? (ofJsonWithin? budget) }
      | _ => none

def ofJson? (json : Json) : Option ClassDeclaration :=
  ofJsonWithin? (json.depth + 1) json

end ClassDeclaration

namespace SourceFile

def toJson (file : SourceFile) : Json :=
  .object
    [("path", .string file.path),
     ("package_name", .string file.packageName),
     ("imports", .ofList Import.toJson file.imports),
     ("classes", .ofList ClassDeclaration.toJson file.classes)]

def ofJson? (json : Json) : Option SourceFile := do
  match ← json.record? ["path", "package_name", "imports", "classes"] with
  | [path, packageName, imports, classes] =>
      return {
        path := ← path.string?
        packageName := ← packageName.string?
        imports := ← imports.list? Import.ofJson?
        classes := ← classes.list? ClassDeclaration.ofJson? }
  | _ => none

end SourceFile

end ApiDocs
