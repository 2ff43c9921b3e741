import ApiDocs.Comment.Json
import ApiDocs.Model
import ApiDocs.TypeUsage.Json

/-!
# The documentation model in JSON

Every part of the model is an object with a member for each field.  A visibility map is an object whose
names are the texts of its platforms.
-/

namespace ApiDocs

namespace PlatformData

def toJson (data : PlatformData) : Json :=
  .string data.display

def ofJson? (json : Json) : Option PlatformData := do
  (PlatformData.parse (← json.string?)).toOption

end PlatformData

namespace Visibility

def toJson (visibility : Visibility) : Json :=
  .string visibility.display

def ofJson? (json : Json) : Option Visibility := do
  match ← json.unitVariant? with
  | "public" => some publicAccess
  | "protected" => some protectedAccess
  | "private" => some privateAccess
  | _ => none

end Visibility

namespace ClassKind

def toJson : ClassKind → Json
  | plainClass => .string "CLASS"
  | interfaceType => .string "INTERFACE"
  | enumType => .string "ENUM_CLASS"
  | enumEntry => .string "ENUM_ENTRY"
  | annotationType => .string "ANNOTATION_CLASS"

def ofJson? (json : Json) : Option ClassKind := do
  match ← json.unitVariant? with
  | "CLASS" => some plainClass
  | "INTERFACE" => some interfaceType
  | "ENUM_CLASS" => some enumType
  | "ENUM_ENTRY" => some enumEntry
  | "ANNOTATION_CLASS" => some annotationType
  | _ => none

end ClassKind

/-- The members of a visibility map, in the order of the platforms. -/
def visibilityToJson (visibility : VisibilityMap) : Json :=
  .object (visibility.entries.map fun (platform, access) => (platform.display, access.toJson))

/-- Of two members for one platform the later stays. -/
def visibilityOfJson? : Json → Option VisibilityMap
  | .object members => do
      let entries ← members.mapM fun (name, value) => do
        return (← (PlatformData.parse name).toOption, ← Visibility.ofJson? value)
      return .ofList entries
  | _ => none

/-- The elements of a set, in order. -/
def stringSetToJson (set : SortedSet String) : Json :=
  .strings set.keys

def stringSetOfJson? (json : Json) : Option (SortedSet String) :=
  json.strings?.map .ofElements

namespace PlatformInfo

def toJson (info : PlatformInfo) : Json :=
  .object
    [("documentation", info.documentation.toJson),
     ("platform_data", .ofList PlatformData.toJson info.platforms)]

def ofJson? (json : Json) : Option PlatformInfo := do
  match ← json.record? ["documentation", "platform_data"] with
  | [documentation, platforms] =>
      return ⟨← Documentation.ofJson? documentation, ← platforms.list? PlatformData.ofJson?⟩
  | _ => none

end PlatformInfo

namespace ClassInfo

def toJson (info : ClassInfo) : Json :=
  .object [("info", info.info.toJson), ("inherited", .ofList Address.toJson info.inherited)]

def ofJson? (json : Json) : Option ClassInfo := do
  match ← json.record? ["info", "inherited"] with
  | [info, inherited] => return ⟨← PlatformInfo.ofJson? info, ← inherited.list? Address.ofJson?⟩
  | _ => none

end ClassInfo

namespace Parameter

def toJson (parameter : Parameter) : Json :=
  .object
    [("dri", parameter.address.toJson),
     ("name", .string parameter.name),
     ("type_", parameter.type.toJson),
     ("expected", .ofOption PlatformInfo.toJson parameter.expected),
     ("actual", .ofList PlatformInfo.toJson parameter.actual)]

def ofJson? (json : Json) : Option Parameter := do
  match ← json.record? ["dri", "name", "type_", "expected", "actual"] with
  | [address, name, type, expected, actual] =>
      return {
        address := ← Address.ofJson? address
        name := ← name.string?
        type := ← TypeUsage.ofJson? type
        expected := ← expected.optional? PlatformInfo.ofJson?
        actual := ← actual.list? PlatformInfo.ofJson? }
  | _ => none

end Parameter

namespace Function

def toJson (function : Function) : Json :=
  .object
    [("dri", function.address.toJson),
     ("name", .string function.name),
     ("return_type", .ofOption TypeUsage.toJson function.returnType),
     ("is_constructor", .bool function.isConstructor),
     ("receiver", .ofOption Parameter.toJson function.receiver),
     ("parameters", .ofList Parameter.toJson function.parameters),
     ("expected", .ofOption PlatformInfo.toJson function.expected),
     ("actual", .ofList PlatformInfo.toJson function.actual),
     ("visibility", visibilityToJson function.visibility)]

def memberNames : List String :=
  ["dri", "name", "return_type", "is_constructor", "receiver", "parameters", "expected", "actual",
    "visibility"]

def ofJson? (json : Json) : Option Function := do
  match ← json.record? memberNames with
  | [address, name, returnType, isConstructor, receiver, parameters, expected, actual, visibility] =>
      return {
        address := ← Address.ofJson? address
        name := ← name.string?
        returnType := ← returnType.optional? TypeUsage.ofJson?
        isConstructor := ← isConstructor.bool?
        receiver := ← receiver.optional? Parameter.ofJson?
        parameters := ← parameters.list? Parameter.ofJson?
        expected := ← expected.optional? PlatformInfo.ofJson?
        actual := ← actual.list? PlatformInfo.ofJson?
        visibility := ← visibilityOfJson? visibility }
  | _ => none

end Function

namespace Property

def toJson (property : Property) : Json :=
  .object
    [("dri", property.address.toJson),
     ("name", .string property.name),
     ("type_", .ofOption TypeUsage.toJson property.type),
     ("receiver", .ofOption Parameter.toJson property.receiver),
     ("expected", .ofOption PlatformInfo.toJson property.expected),
     ("actual", .ofList PlatformInfo.toJson property.actual),
     ("accessors", .ofList Function.toJson property.accessors),
     ("visibility", visibilityToJson property.visibility)]

def memberNames : List String :=
  ["dri", "name", "type_", "receiver", "expected", "actual", "accessors", "visibility"]

def ofJson? (json : Json) : Option Property := do
  match ← json.record? memberNames with
  | [address, name, type, receiver, expected, actual, accessors, visibility] =>
      return {
        address := ← Address.ofJson? address
        name := ← name.string?
        type := ← type.optional? TypeUsage.ofJson?
        receiver := ← receiver.optional? Parameter.ofJson?
        expected := ← expected.optional? PlatformInfo.ofJson?
        actual := ← actual.list? PlatformInfo.ofJson?
        accessors := ← accessors.list? Function.ofJson?
        visibility := ← visibilityOfJson? visibility }
  | _ => none

end Property

namespace Class

def toJson : Class → Json
  | ⟨address, name, kind, constructors, functions, properties, classes, expected, actual, extra,
      visibility⟩ =>
      .object
        [("dri", address.toJson),
         ("name", .string name),
         ("kind", kind.toJson),
         ("constructors", .ofList Function.toJson constructors),
         ("functions", .ofList Function.toJson functions),
         ("properties", .ofList Property.toJson properties),
         ("classlikes", .array (toJsons classes)),
         ("expected", .ofOption ClassInfo.toJson expected),
         ("actual", .ofList ClassInfo.toJson actual),
         ("extra", stringSetToJson extra),
         ("visibility", visibilityToJson visibility)]
where
  toJsons : List Class → List Json
    | [] => []
    | first :: rest => toJson first :: toJsons rest

def memberNames : List String :=
  ["dri", "name", "kind", "constructors", "functions", "properties", "classlikes", "expected", "actual",
    "extra", "visibility"]

/-- Read a class whose JSON form nests no deeper than the budget. -/
def ofJsonWithin? : Nat → Json → Option Class
  | 0, _ => none
  | budget + 1, json => do
      match ← json.record? memberNames with
      | [address, name, kind, constructors, functions, properties, classes, expected, actual, extra,
          visibility] =>
          return {
            address := ← Address.ofJson? address
            name := ← name.string?
            kind := ← ClassKind.ofJson? kind
            constructors := ← constructors.list? Function.ofJson?
            functions := ← functions.list? Function.ofJson?
            properties := ← properties.list? Property.ofJson?
            classes := ← classes.list? (ofJsonWithin? budget)
            expected := ← expected.optional? ClassInfo.ofJson?
            actual := ← actual.list? ClassInfo.ofJson?
            extra := ← stringSetOfJson? extra
            visibility := ← visibilityOfJson? visibility }
      | _ => none

def ofJson? (json : Json) : Option Class :=
  ofJsonWithin? (json.depth + 1) json

end Class

namespace Package

def toJson (package : Package) : Json :=
  .object
    [("dri", package.address.toJson),
     ("name", .string package.name),
     ("functions", .ofList Function.toJson package.functions),
     ("properties", .ofList Property.toJson package.properties),
     ("classlikes", .ofList Class.toJson package.classes)]

def ofJson? (json : Json) : Option Package := do
  match ← json.record? ["dri", "name", "functions", "properties", "classlikes"] with
  | [address, name, functions, properties, classes] =>
      return {
        address := ← Address.ofJson? address
        name := ← name.string?
        functions := ← functions.list? Function.ofJson?
        properties := ← properties.list? Property.ofJson?
        classes := ← classes.list? Class.ofJson? }
  | _ => none

end Package

namespace Module

def toJson (documented : Module) : Json :=
  .object
    [("name", .string documented.name), ("packages", .ofList Package.toJson documented.packages)]

def ofJson? (json : Json) : Option Module := do
  match ← json.record? ["name", "packages"] with
  | [name, packages] => return ⟨← name.string?, ← packages.list? Package.ofJson?⟩
  | _ => none

end Module

end ApiDocs
