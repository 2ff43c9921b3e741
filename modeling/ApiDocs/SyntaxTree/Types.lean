import ApiDocs.JavaType
import ApiDocs.SyntaxTree

/-!
# Types in syntax trees

The type that a type node stands for.  Annotations are dropped, and a qualified name keeps its identifiers
only.
-/

namespace ApiDocs.SyntaxNode

/-- The kinds of nodes that are types. -/
def typeKinds : List String :=
  ["void_type", "integral_type", "floating_point_type", "boolean_type", "type_identifier",
    "scoped_type_identifier", "generic_type", "array_type", "annotated_type"]

def isType (node : SyntaxNode) : Bool :=
  typeKinds.contains node.kind

/-- The nodes whose names make up a qualified name. -/
def isNamePart (node : SyntaxNode) : Bool :=
  node.isNamed &&
    ["type_identifier", "identifier", "scoped_type_identifier", "generic_type"].contains node.kind

/-- The dotted name of a possibly qualified type, without annotations and type arguments. -/
def typeName : SyntaxNode → String
  | ⟨kind, _, _, _, text, children⟩ =>
      if kind = "scoped_type_identifier" ∨ kind = "generic_type" then
        String.intercalate "." (partNames children)
      else text
where
  partNames : List SyntaxNode → List String
    | [] => []
    | first :: rest =>
        if first.isNamePart then typeName first :: partNames rest else partNames rest

/-- The name of a generic type, from the last of its children that is one. -/
def genericName (children : List SyntaxNode) : String :=
  let names := children.filter fun child =>
    child.isNamed && (child.kind == "type_identifier" || child.kind == "scoped_type_identifier")
  (names.getLast?.map typeName).getD ""

/-- How many opening brackets the text of a dimensions node has. -/
def dimensionCount : Option SyntaxNode → Nat
  | some dimensions => dimensions.text.toList.count '['
  | none => 0

/-- An element type inside a number of array types. -/
def nestArrays (element : JavaType) : Nat → JavaType
  | 0 => element
  | depth + 1 => .array (nestArrays element depth)

/-- An element type inside as many array types as a dimensions node asks for. -/
def withDimensions (element : JavaType) (dimensions : Option SyntaxNode) : JavaType :=
  nestArrays element (dimensionCount dimensions)

/-- The type of a type node; a node of another kind is taken for a class by its whole text. -/
def type : SyntaxNode → JavaType
  | ⟨kind, _, _, _, text, children⟩ =>
      match kind with
      | "void_type" | "integral_type" | "floating_point_type" | "boolean_type" => .primitive text
      | "type_identifier" => .named text []
      | "scoped_type_identifier" => .named (String.intercalate "." (typeName.partNames children)) []
      | "generic_type" => .named (genericName children) (argumentTypes children)
      | "array_type" =>
          let element := (elementType? children).getD (.named "java.lang.Object" [])
          withDimensions element (children.find? fun child => child.field == "dimensions")
      | "annotated_type" => (annotated? children).getD (.named text [])
      | "wildcard" =>
          match bound? children with
          | none => .wildcard
          | some bound =>
              if children.any fun child => child.kind == "super" then .wildcardSuper bound
              else .wildcardExtends bound
      | _ => .named text []
where
  /-- The type in the role of an array's element. -/
  elementType? : List SyntaxNode → Option JavaType
    | [] => none
    | first :: rest => if first.field = "element" then some (type first) else elementType? rest
  /-- The type that annotations stand before: the last type among the named children. -/
  annotated? : List SyntaxNode → Option JavaType
    | [] => none
    | first :: rest =>
        match annotated? rest with
        | some later => some later
        | none => if first.isNamed && first.isType then some (type first) else none
  /-- The bound of a wildcard: the last type among the children. -/
  bound? : List SyntaxNode → Option JavaType
    | [] => none
    | first :: rest =>
        match bound? rest with
        | some later => some later
        | none => if first.isType then some (type first) else none
  /-- The arguments in a list of type arguments. -/
  arguments : List SyntaxNode → List JavaType
    | [] => []
    | first :: rest =>
        if first.isNamed && (first.kind == "wildcard" || first.isType) then
          type first :: arguments rest
        else arguments rest
  /-- The arguments of a generic type, from the last of its lists of them. -/
  argumentTypes : List SyntaxNode → List JavaType
    | [] => []
    | ⟨kind, _, isNamed, _, _, inner⟩ :: rest =>
        if rest.any fun child => child.isNamed && child.kind == "type_arguments" then argumentTypes rest
        else if isNamed && kind == "type_arguments" then arguments inner
        else argumentTypes rest

/-- The types among the named children of a clause and of the type lists in it. -/
def clauseTypes : SyntaxNode → List JavaType
  | ⟨_, _, _, _, _, children⟩ => inAll children
where
  inAll : List SyntaxNode → List JavaType
    | [] => []
    | first :: rest =>
        let here :=
          if first.isNamed && first.kind == "type_list" then clauseTypes first
          else if first.isNamed && first.isType then [type first]
          else []
        here ++ inAll rest

end ApiDocs.SyntaxNode
