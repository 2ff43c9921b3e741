import ApiDocs.Distinct
import ApiDocs.Model

/-!
# Views of the model

What a page shows of a package: its classes one after the other, nested classes behind the class around
them, and of each class and member the texts that stand on the page.
-/

namespace ApiDocs.Markdown

structure ParameterView where
  name : String
  typeName : String
  description : Option String

structure FunctionView where
  signature : String
  visibility : String
  description : Option String
  parameters : List ParameterView
  tags : List String

/-- The constructors or the functions of a class under a title. -/
structure SectionView where
  title : String
  functions : List FunctionView

structure PropertyView where
  name : String
  typeName : String
  visibility : String
  description : String

structure ClassView where
  kind : String
  qualified : String
  visibility : String
  platforms : List String
  extra : List String
  inherited : List String
  description : Option String
  tags : List String
  sections : List SectionView
  properties : List PropertyView

structure PackageView where
  name : String
  file : String
  classes : List ClassView

/-- The text with a space in place of each line feed. -/
def onOneLine (text : String) : String :=
  String.ofList (text.toList.map fun char => if char = '\n' then ' ' else char)

/-- The text as a cell of a table: on one line and with a backslash before each bar. -/
def tableCell (text : String) : String :=
  String.ofList ((onOneLine text).toList.flatMap fun char => if char = '|' then ['\\', '|'] else [char])

/-- A visibility that holds on every platform stands alone; otherwise it is listed by platform. -/
def visibilityText (visibility : VisibilityMap) : String :=
  let listed := String.intercalate ", " <| visibility.entries.map fun (platform, access) =>
    access.display ++ " on " ++ platform.display
  match visibility.values with
  | [] => ""
  | first :: rest => if rest.all fun access => access == first then first.display else listed

/-- The name of a used type with its arguments; without a name it is that of the class it leads to. -/
def typeLabel : TypeUsage → String
  | ⟨name, _, arguments, address, _⟩ =>
      let dotted := name.getD ""
      let base := if dotted = "" then (address.bind Address.classNames).getD "?" else dotted
      match arguments with
      | [] => base
      | first :: rest => base ++ "<" ++ String.intercalate ", " (typeLabels (first :: rest)) ++ ">"
where
  typeLabels : List TypeUsage → List String
    | [] => []
    | first :: rest => typeLabel first :: typeLabels rest

/-- The line of a block tag; descriptions and parameters stand elsewhere. -/
def tagLine? (tag : Tag) : Option String :=
  let text := onOneLine tag.root.display
  match tag with
  | .description _ => none
  | .param _ _ => none
  | .returns _ => some ("Returns: " ++ text)
  | .throws name _ => some ("Throws `" ++ name ++ "`: " ++ text)
  | .see name _ => some ("See: `" ++ name ++ "`")
  | .author _ => some ("Author: " ++ text)
  | .since _ => some ("Since: " ++ text)
  | .deprecated _ => some ("Deprecated: " ++ text)
  | .custom name _ => some ("@" ++ name ++ ": " ++ text)

/-- The lines of a comment's block tags. -/
def tagLines (documentation : Documentation) : List String :=
  documentation.tags.filterMap tagLine?

/-- The documentation of the first platform that has any. -/
def firstDocumentation (infos : List PlatformInfo) : Documentation :=
  ((infos.map PlatformInfo.documentation).find? fun documentation => !documentation.tags.isEmpty).getD ⟨[]⟩

/-- The description in the first documentation. -/
def descriptionOf (infos : List PlatformInfo) : Option String :=
  (firstDocumentation infos).description?.map DocText.display

/-- The platforms of infos, each where it was first seen. -/
def platformsOf (infos : List PlatformInfo) : List String :=
  distinct <| infos.flatMap fun info => info.platforms.map PlatformData.display

/-- The dotted name of an inherited class between backquotes. -/
def inheritedName? (address : Address) : Option String :=
  address.classNames.map fun classNames =>
    let packageName := address.packageName.getD ""
    if packageName = "" then "`" ++ classNames ++ "`" else "`" ++ packageName ++ "." ++ classNames ++ "`"

namespace ParameterView

def ofParameter (parameter : Parameter) : ParameterView :=
  ⟨parameter.name, typeLabel parameter.type, descriptionOf parameter.actual⟩

/-- A parameter in a signature. -/
def declaration (parameter : ParameterView) : String :=
  parameter.typeName ++ " " ++ parameter.name

end ParameterView

namespace FunctionView

/-- A function starts with its return type; a constructor goes by the name of its class. -/
def heading (className : String) (function : Function) : String :=
  match function.returnType with
  | some returnType => typeLabel returnType ++ " " ++ function.name
  | none => if function.isConstructor then className else function.name

def ofFunction (className : String) (function : Function) : FunctionView :=
  let parameters := function.parameters.map ParameterView.ofParameter
  let declarations := String.intercalate ", " (parameters.map ParameterView.declaration)
  { signature := heading className function ++ "(" ++ declarations ++ ")"
    visibility := visibilityText function.visibility
    description := descriptionOf function.actual
    parameters
    tags := tagLines (firstDocumentation function.actual) }

end FunctionView

namespace SectionView

/-- A section of functions, which is left out when there are none. -/
def ofFunctions (title className : String) (functions : List Function) : List SectionView :=
  if functions.isEmpty then [] else [⟨title, functions.map (FunctionView.ofFunction className)⟩]

end SectionView

namespace PropertyView

def ofProperty (property : Property) : PropertyView :=
  { name := property.name
    typeName := (property.type.map typeLabel).getD ""
    visibility := visibilityText property.visibility
    description := ((descriptionOf property.actual).map tableCell).getD "" }

end PropertyView

namespace ClassView

/-- The view of one class, without the classes inside it. -/
def ofClass (declared : Class) : ClassView :=
  let infos := declared.actual.map ClassInfo.info
  { kind := declared.kind.display
    qualified := declared.address.classNames.getD declared.name
    visibility := visibilityText declared.visibility
    platforms := platformsOf infos
    extra := declared.extra.keys
    inherited := distinct ((declared.actual.flatMap ClassInfo.inherited).filterMap inheritedName?)
    description := descriptionOf infos
    tags := tagLines (firstDocumentation infos)
    sections := SectionView.ofFunctions "Constructors" declared.name declared.constructors ++
      SectionView.ofFunctions "Functions" declared.name declared.functions
    properties := declared.properties.map PropertyView.ofProperty }

/-- The views of a class and of the classes inside it, an outer class before its inner ones. -/
def flatten : Class → List ClassView
  | ⟨address, name, kind, constructors, functions, properties, classes, expected, actual, extra,
      visibility⟩ =>
      ofClass ⟨address, name, kind, constructors, functions, properties, classes, expected, actual, extra,
        visibility⟩ :: flattenAll classes
where
  flattenAll : List Class → List ClassView
    | [] => []
    | first :: rest => flatten first ++ flattenAll rest

end ClassView

namespace PackageView

def ofPackage (package : Package) : PackageView :=
  let isNameless := package.name = ""
  { name := if isNameless then "(default package)" else package.name
    file := if isNameless then "default.md" else package.name ++ ".md"
    classes := ClassView.flatten.flattenAll package.classes }

end PackageView

end ApiDocs.Markdown
