import ApiDocs.Address
import ApiDocs.Json.Record

/-!
# Addresses in JSON

An address is an object with a member for each of its parts; absent parts are null.
-/

namespace ApiDocs

namespace TypeReference

def toJson (reference : TypeReference) : Json :=
  .object [("kind", .string "JavaClass"), ("name", .string reference.name)]

def ofJson? (json : Json) : Option TypeReference := do
  match ← json.record? ["kind", "name"] with
  | [kind, name] =>
      if (← kind.unitVariant?) = "JavaClass" then return ⟨← name.string?⟩ else none
  | _ => none

end TypeReference

namespace Callable

def toJson (callable : Callable) : Json :=
  .object
    [("name", .string callable.name),
     ("receiver", .ofOption TypeReference.toJson callable.receiver),
     ("params", .ofList TypeReference.toJson callable.parameters)]

def ofJson? (json : Json) : Option Callable := do
  match ← json.record? ["name", "receiver", "params"] with
  | [name, receiver, parameters] =>
      return ⟨← name.string?, ← receiver.optional? TypeReference.ofJson?,
        ← parameters.list? TypeReference.ofJson?⟩
  | _ => none

end Callable

namespace Address

def toJson (address : Address) : Json :=
  .object
    [("package_name", .ofOption .string address.packageName),
     ("class_names", .ofOption .string address.classNames),
     ("callable", .ofOption Callable.toJson address.callable),
     ("target", .natural address.target),
     ("extra", .ofOption .string address.extra)]

def ofJson? (json : Json) : Option Address := do
  match ← json.record? ["package_name", "class_names", "callable", "target", "extra"] with
  | [packageName, classNames, callable, target, extra] =>
      return ⟨← packageName.optional? Json.string?, ← classNames.optional? Json.string?,
        ← callable.optional? Callable.ofJson?, ← target.natural?, ← extra.optional? Json.string?⟩
  | _ => none

end Address

end ApiDocs
