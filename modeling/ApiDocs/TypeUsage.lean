import ApiDocs.Address
import ApiDocs.JavaType

/-!
# Usages of types

The documentation shows a type by the dotted name of its class, the usages of its class arguments and the
address that a link to it leads to.
-/

namespace ApiDocs

/-- A type as the documentation refers to it. -/
structure TypeUsage where
  /-- The dotted name, absent for a reference that was not resolved to a class. -/
  name : Option String
  /-- The parts of the name. -/
  segments : List String
  arguments : List TypeUsage
  /-- Where a link to the type leads. -/
  address : Option Address
  isPrimitive : Bool

namespace TypeUsage

def objectAddress : Address :=
  .ofClass "java.lang" "Object"

/-- The package part of a written name: what stands before its class name, without the dots at its end. -/
def qualifier (written className : String) : String :=
  match Text.withoutTail? className.toList written.toList with
  | some before => String.ofList (before.reverse.dropWhile (· = '.')).reverse
  | none => ""

/-- The address a class reference leads to; an unresolved name keeps the qualifier it was written with. -/
def referenceAddress (written className : String) : Resolution → Address
  | .classNamed name => name.address
  | _ => .ofClass (qualifier written className) className

/-- An array leads to the class of its innermost elements; unresolved elements fall back to `Object`. -/
def elementAddress : JavaType → Option Address
  | .reference _ _ _ (.classNamed name) => some name.address
  | .primitive _ => none
  | _ => some objectAddress

/-- The usage of a type.  A bounded wildcard is used as its bound, and an unbounded one as `Object`. -/
def ofType : JavaType → TypeUsage
  | .primitive name => ⟨some name, Text.fields '.' name, [], none, true⟩
  | .reference written className arguments resolution =>
      let name := resolution.qualifiedName?
      { name
        segments := (name.map (Text.fields '.')).getD []
        arguments := ofArguments arguments
        address := some (referenceAddress written className resolution)
        isPrimitive := false }
  | .array element =>
      let text := (JavaType.array element).canonicalText
      ⟨some text, [text], [], elementAddress element.innermost, false⟩
  | .variadic element =>
      let text := (JavaType.variadic element).canonicalText
      ⟨some text, [text], [], some objectAddress, false⟩
  | .wildcard => ⟨some "java.lang.Object", ["java", "lang", "Object"], [], some objectAddress, false⟩
  | .wildcardExtends bound => ofType bound
  | .wildcardSuper bound => ofType bound
where
  /-- Of the type arguments only class references are shown. -/
  ofArguments : List JavaType → List TypeUsage
    | [] => []
    | first :: rest =>
        if first.isReference then ofType first :: ofArguments rest else ofArguments rest

/-- The dotted name, or nothing. -/
def display (usage : TypeUsage) : String :=
  usage.name.getD ""

end TypeUsage

end ApiDocs
