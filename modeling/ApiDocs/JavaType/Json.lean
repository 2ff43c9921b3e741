import ApiDocs.JavaType
import ApiDocs.Json.Record

/-!
# Java types in JSON

A type is an object whose single member names its sort.
-/

namespace ApiDocs

namespace Resolution

def toJson : Resolution → Json
  | unresolved => .string "Unresolved"
  | typeParameter => .string "TypeParameter"
  | classNamed name =>
      .object [("Class", .object
        [("package_name", .string name.packageName), ("class_names", .strings name.classNames)])]

def ofJson? (json : Json) : Option Resolution := do
  match ← json.variant? with
  | ("Class", some content) =>
      match ← content.record? ["package_name", "class_names"] with
      | [packageName, classNames] => return .classNamed ⟨← packageName.string?, ← classNames.strings?⟩
      | _ => none
  | _ =>
      match ← json.unitVariant? with
      | "Unresolved" => return .unresolved
      | "TypeParameter" => return .typeParameter
      | _ => none

end Resolution

namespace JavaType

def toJson : JavaType → Json
  | primitive name => .object [("Primitive", .string name)]
  | reference written className arguments resolution =>
      .object [("ClassReference", .object
        [("written", .string written),
         ("class_name", .string className),
         ("arguments", .array (toJsons arguments)),
         ("resolution", resolution.toJson)])]
  | array element => .object [("Array", toJson element)]
  | variadic element => .object [("Ellipsis", toJson element)]
  | wildcard => .object [("Wildcard", .object [("bound", .null)])]
  | wildcardExtends bound =>
      .object [("Wildcard", .object [("bound", .object [("Extends", toJson bound)])])]
  | wildcardSuper bound =>
      .object [("Wildcard", .object [("bound", .object [("Super", toJson bound)])])]
where
  toJsons : List JavaType → List Json
    | [] => []
    | first :: rest => toJson first :: toJsons rest

/-- Read a type whose JSON form nests no deeper than the budget. -/
def ofJsonWithin? : Nat → Json → Option JavaType
  | 0, _ => none
  | budget + 1, json => do
      match ← json.variant? with
      | ("Primitive", some name) => return .primitive (← name.string?)
      | ("ClassReference", some content) =>
          match ← content.record? ["written", "class_name", "arguments", "resolution"] with
          | [written, className, arguments, resolution] =>
              return .reference (← written.string?) (← className.string?)
                (← arguments.list? (ofJsonWithin? budget)) (← Resolution.ofJson? resolution)
          | _ => none
      | ("Array", some element) => return .array (← ofJsonWithin? budget element)
      | ("Ellipsis", some element) => return .variadic (← ofJsonWithin? budget element)
      | ("Wildcard", some content) =>
          match ← content.record? ["bound"] with
          | [.null] => return .wildcard
          | [bound] =>
              match ← bound.variant? with
              | ("Extends", some bound) => return .wildcardExtends (← ofJsonWithin? budget bound)
              | ("Super", some bound) => return .wildcardSuper (← ofJsonWithin? budget bound)
              | _ => none
          | _ => none
      | _ => none

def ofJson? (json : Json) : Option JavaType :=
  ofJsonWithin? (json.depth + 1) json

end JavaType

end ApiDocs
