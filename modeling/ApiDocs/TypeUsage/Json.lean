import ApiDocs.Address.Json
import ApiDocs.TypeUsage

/-!
# Usages of types in JSON
-/

namespace ApiDocs.TypeUsage

def toJson : TypeUsage → Json
  | ⟨name, segments, arguments, address, isPrimitive⟩ =>
      .object
        [("constructor_fq_name", .ofOption .string name),
         ("constructor_name_path_segments", .strings segments),
         ("arguments", .array (toJsons arguments)),
         ("dri", .ofOption Address.toJson address),
         ("is_primitive", .bool isPrimitive)]
where
  toJsons : List TypeUsage → List Json
    | [] => []
    | first :: rest => toJson first :: toJsons rest

def memberNames : List String :=
  ["constructor_fq_name", "constructor_name_path_segments", "arguments", "dri", "is_primitive"]

/-- Read a usage whose JSON form nests no deeper than the budget. -/
def ofJsonWithin? : Nat → Json → Option TypeUsage
  | 0, _ => none
  | budget + 1, json => do
      match ← json.record? memberNames with
      | [name, segments, arguments, address, isPrimitive] =>
          return ⟨← name.optional? Json.string?, ← segments.strings?,
            ← arguments.list? (ofJsonWithin? budget), ← address.optional? Address.ofJson?,
            ← isPrimitive.bool?⟩
      | _ => none

def ofJson? (json : Json) : Option TypeUsage :=
  ofJsonWithin? (json.depth + 1) json

end ApiDocs.TypeUsage
