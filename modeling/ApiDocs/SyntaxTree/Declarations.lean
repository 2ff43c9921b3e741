import ApiDocs.Declaration
import ApiDocs.SyntaxTree.Types
import ApiDocs.Text.Blank

/-!
# Declarations in syntax trees

The declarations that a syntax tree of a source file holds.  A declaration without a name is left out; a
field declaration stands for one field a declarator.  What precedes a declaration among its siblings,
nearest first, decides about its doc comment.
-/

namespace ApiDocs

/-- A member of a class body. -/
inductive Member where
  | field (field : FieldDeclaration)
  | method (method : MethodDeclaration)
  | constructor (method : MethodDeclaration)
  | inner (declared : ClassDeclaration)

namespace Member

def field? : Member → Option FieldDeclaration
  | field declared => some declared
  | _ => none

def method? : Member → Option MethodDeclaration
  | method declared => some declared
  | _ => none

def constructor? : Member → Option MethodDeclaration
  | constructor declared => some declared
  | _ => none

def inner? : Member → Option ClassDeclaration
  | inner declared => some declared
  | _ => none

end Member

namespace SyntaxNode

/-- The kinds of nodes that declare a class, interface, enum, annotation type or record. -/
def typeDeclarationKinds : List String :=
  ["class_declaration", "interface_declaration", "enum_declaration", "annotation_type_declaration",
    "record_declaration"]

def isTypeDeclaration (node : SyntaxNode) : Bool :=
  typeDeclarationKinds.contains node.kind

/-- A node's text without any blanks. -/
def dottedText (node : SyntaxNode) : String :=
  String.ofList (node.text.toList.filter fun char => !Text.isBlank char)

def isIdentifier (node : SyntaxNode) : Bool :=
  node.kind == "identifier" || node.kind == "scoped_identifier"

/-- The name in a package declaration. -/
def packageName (node : SyntaxNode) : String :=
  ((node.namedChildren.find? isIdentifier).map dottedText).getD ""

/-- The import that a node declares; the last name in it counts. -/
def imported (node : SyntaxNode) : Import :=
  { name := (((node.children.filter isIdentifier).getLast?).map dottedText).getD ""
    isStatic := node.children.any fun child => child.kind == "static"
    onDemand := node.children.any fun child => child.kind == "asterisk" }

/-- The text of a doc comment; an empty one is none. -/
def isDocComment (text : String) : Bool :=
  ['/', '*', '*'].isPrefixOf text.toList && text != "/**/"

/-- The nearest block comment with nothing but line comments behind it. -/
def precedingComment? : List SyntaxNode → Option SyntaxNode
  | [] => none
  | node :: earlier =>
      if node.kind = "line_comment" then precedingComment? earlier
      else if node.kind = "block_comment" then some node
      else none

/-- The doc comment of a declaration with the given siblings before it. -/
def docComment? (preceding : List SyntaxNode) : Option String :=
  ((precedingComment? preceding).map text).filter isDocComment

/-- The modifiers and annotations of a declaration, if it has a list of them. -/
def modifiers? (node : SyntaxNode) : Option (List String) :=
  (node.children.find? fun child => child.kind == "modifiers").map fun list =>
    (list.children.filter fun child => !child.isExtra).map text

/-- The names of the type parameters that a declaration introduces. -/
def typeParameters (node : SyntaxNode) : List String :=
  match node.child? "type_parameters" with
  | none => []
  | some list =>
      (list.namedChildren.filter fun child => child.kind == "type_parameter").filterMap fun parameter =>
        (parameter.namedChildren.find? fun child =>
          child.kind == "type_identifier" || child.kind == "identifier").map text

/-- The text of the child in the role of a name. -/
def name? (node : SyntaxNode) : Option String :=
  (node.child? "name").map text

/-- A parameter that takes any number of arguments: the first type in it is that of each argument. -/
def spreadParameter? (node : SyntaxNode) : Option ParameterDeclaration := do
  let element ← node.namedChildren.find? isType
  let declarator ← (node.namedChildren.filter fun child => child.kind == "variable_declarator").getLast?
  return ⟨← declarator.name?, .variadic element.type⟩

/-- The parameter that a node declares; a receiver parameter is none. -/
def parameter? (node : SyntaxNode) : Option ParameterDeclaration :=
  match node.kind with
  | "formal_parameter" => do
      let declared ← node.child? "type"
      let name ← node.name?
      return ⟨name, withDimensions declared.type (node.child? "dimensions")⟩
  | "spread_parameter" => spreadParameter? node
  | _ => none

/-- The parameters that a declaration lists. -/
def parameters (node : SyntaxNode) : List ParameterDeclaration :=
  match node.child? "parameters" with
  | none => []
  | some list => list.namedChildren.filterMap parameter?

/-- The method that a node declares in a class. -/
def method? (owner : String) (preceding : List SyntaxNode) (node : SyntaxNode) :
    Option MethodDeclaration := do
  let name ← node.name?
  let declared ← node.child? "type"
  return {
    name
    isConstructor := false
    containingClass := some owner
    modifiers := node.modifiers?
    docComment := docComment? preceding
    typeParameters := node.typeParameters
    returnType := some (withDimensions declared.type (node.child? "dimensions"))
    parameters := node.parameters }

/-- The constructor with the given parameters that a node declares in a class. -/
def constructor? (owner : String) (preceding : List SyntaxNode)
    (parameters : List ParameterDeclaration) (node : SyntaxNode) : Option MethodDeclaration := do
  let name ← node.name?
  return {
    name
    isConstructor := true
    containingClass := some owner
    modifiers := node.modifiers?
    docComment := docComment? preceding
    typeParameters := node.typeParameters
    returnType := none
    parameters }

/-- The fields that a node declares in a class, one for each declarator with a name. -/
def fields (owner : String) (preceding : List SyntaxNode) (node : SyntaxNode) :
    List FieldDeclaration :=
  match node.child? "type" with
  | none => []
  | some declared =>
      (node.childrenIn "declarator").filterMap fun declarator => do
        let name ← declarator.name?
        return {
          name
          containingClass := some owner
          modifiers := node.modifiers?
          docComment := docComment? preceding
          type := withDimensions declared.type (declarator.child? "dimensions") }

/-- The constant of an enum, whose type is the enum itself. -/
def enumConstant? (owner : String) (preceding : List SyntaxNode) (node : SyntaxNode) :
    Option FieldDeclaration := do
  let name ← node.name?
  return {
    name
    containingClass := some owner
    modifiers := node.modifiers?
    docComment := docComment? preceding
    type := .named owner [] }

/-- The field behind a component of a record. -/
def componentField (owner : String) (component : ParameterDeclaration) : FieldDeclaration :=
  { name := component.name
    containingClass := some owner
    modifiers := some ["private", "final"]
    docComment := none
    type := component.type }

/-- The members other than classes that a node declares. -/
def simpleMembers (owner : String) (components : List ParameterDeclaration)
    (preceding : List SyntaxNode) (node : SyntaxNode) : List Member :=
  match node.kind with
  | "field_declaration" | "constant_declaration" => (fields owner preceding node).map Member.field
  | "enum_constant" => ((enumConstant? owner preceding node).map Member.field).toList
  | "method_declaration" | "annotation_type_element_declaration" =>
      ((method? owner preceding node).map Member.method).toList
  | "constructor_declaration" =>
      ((constructor? owner preceding node.parameters node).map Member.constructor).toList
  | "compact_constructor_declaration" =>
      ((constructor? owner preceding components node).map Member.constructor).toList
  | _ => []

/-- The types that a class extends and implements. -/
def superTypes (node : SyntaxNode) : List JavaType :=
  (node.children.filter fun child =>
    ["superclass", "super_interfaces", "extends_interfaces"].contains child.kind).flatMap clauseTypes

/-- The class that a type declaration makes of its members. -/
def classWith (node : SyntaxNode) (preceding : List SyntaxNode) (name : String)
    (components : List ParameterDeclaration) (members : List Member) : ClassDeclaration :=
  { name
    isAnnotationType := node.kind == "annotation_type_declaration"
    isInterface := node.kind == "interface_declaration" || node.kind == "annotation_type_declaration"
    isEnum := node.kind == "enum_declaration"
    isRecord := node.kind == "record_declaration"
    modifiers := node.modifiers?
    docComment := docComment? preceding
    typeParameters := node.typeParameters
    superTypes := node.superTypes
    constructors := members.filterMap Member.constructor?
    methods := members.filterMap Member.method?
    fields := components.map (componentField name) ++ members.filterMap Member.field?
    innerClasses := members.filterMap Member.inner? }

/-- The components of a record; other declarations have none. -/
def components (node : SyntaxNode) : List ParameterDeclaration :=
  if node.kind = "record_declaration" then node.parameters else []

/-- The class that a type declaration with the given siblings before it declares. -/
def class? (preceding : List SyntaxNode) : SyntaxNode → Option ClassDeclaration
  | ⟨kind, field, isNamed, isExtra, text, children⟩ =>
      let node : SyntaxNode := ⟨kind, field, isNamed, isExtra, text, children⟩
      node.name?.map fun name =>
        classWith node preceding name node.components (bodyMembers name node.components children)
where
  /-- The members in the first child in the role of a body. -/
  bodyMembers (owner : String) (components : List ParameterDeclaration) :
      List SyntaxNode → List Member
    | [] => []
    | ⟨_, field, _, _, _, inner⟩ :: rest =>
        if field = "body" then members owner components [] inner
        else bodyMembers owner components rest
  /-- The members that nodes declare, with their siblings before them; the declarations behind the
  constants of an enum are members of the enum. -/
  members (owner : String) (components : List ParameterDeclaration) (preceding : List SyntaxNode) :
      List SyntaxNode → List Member
    | [] => []
    | ⟨kind, field, isNamed, isExtra, text, children⟩ :: rest =>
        let node : SyntaxNode := ⟨kind, field, isNamed, isExtra, text, children⟩
        let declared :=
          if !isNamed then []
          else if kind = "enum_body_declarations" then members owner components [] children
          else if typeDeclarationKinds.contains kind then
            ((class? preceding ⟨kind, field, isNamed, isExtra, text, children⟩).map Member.inner).toList
          else simpleMembers owner components preceding node
        declared ++ members owner components (node :: preceding) rest

/-- The classes declared by nodes, with their siblings before them. -/
def classes (preceding : List SyntaxNode) : List SyntaxNode → List ClassDeclaration
  | [] => []
  | node :: rest =>
      (if node.isTypeDeclaration then (class? preceding node).toList else []) ++
        classes (node :: preceding) rest

end SyntaxNode

namespace SourceFile

/-- The source file with a syntax tree; of several package declarations the last counts. -/
def ofSyntax (path : String) (root : SyntaxNode) : SourceFile :=
  let packages := root.children.filter fun child => child.kind == "package_declaration"
  let imports := root.children.filter fun child => child.kind == "import_declaration"
  { path
    packageName := (packages.getLast?.map SyntaxNode.packageName).getD ""
    imports := imports.map SyntaxNode.imported
    classes := SyntaxNode.classes [] root.children }

end SourceFile

end ApiDocs
