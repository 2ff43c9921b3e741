import ApiDocs.Markdown.View
import ApiDocs.Path

/-!
# Pages

The Markdown pages of a module: an index that links to a page for each package.  A page may start with
front matter, which says what it was made from and when.
-/

namespace ApiDocs

/-- A file made by rendering, by its path below the output directory. -/
structure RenderedFile where
  path : Path
  content : String
deriving DecidableEq

namespace Markdown

/-- What stands before a page about its making. -/
structure FrontMatter where
  moduleName : String
  packageName : Option String
  generatedAt : String
  sourceHash : String

namespace FrontMatter

def text (frontMatter : FrontMatter) : String :=
  "---\nmodule: " ++ frontMatter.moduleName ++ "\n" ++
    (match frontMatter.packageName with
      | some packageName => if packageName = "" then "" else "package: " ++ packageName ++ "\n"
      | none => "") ++
    "generated_at: " ++ frontMatter.generatedAt ++ "\nsource_hash: " ++ frontMatter.sourceHash ++
    "\n---\n\n"

end FrontMatter

/-- A text that is put between others if it is there and not empty. -/
def between (before : String) (text : Option String) (after : String) : String :=
  match text with
  | some text => if text = "" then "" else before ++ text ++ after
  | none => ""

/-- A list of texts that is put between others unless it is empty. -/
def listBetween (before separator : String) (texts : List String) (after : String) : String :=
  if texts.isEmpty then "" else before ++ String.intercalate separator texts ++ after

namespace PackageView

/-- The row of a package in the table of the index. -/
def indexRow (package : PackageView) : String :=
  "| [" ++ package.name ++ "](packages/" ++ package.file ++ ") | " ++
    toString package.classes.length ++ " |\n"

end PackageView

/-- The index without front matter. -/
def indexBody (moduleName : String) (packages : List PackageView) : String :=
  "# Module " ++ moduleName ++ "\n\n| Package | Classes |\n|---------|---------|\n" ++
    String.join (packages.map PackageView.indexRow)

/-- Block tags, each on a line that ends where the next begins. -/
def tagList (tags : List String) : String :=
  String.join (tags.map fun tag => "\n- " ++ tag)

namespace ParameterView

def line (parameter : ParameterView) : String :=
  "\n- `" ++ parameter.name ++ "`: `" ++ parameter.typeName ++ "`" ++ between " " parameter.description ""

end ParameterView

namespace FunctionView

def text (function : FunctionView) : String :=
  "\n#### `" ++ function.signature ++ "`\n\nVisibility: " ++ function.visibility ++ "\n" ++
    between "\n" function.description "\n" ++
    String.join (function.parameters.map ParameterView.line) ++ tagList function.tags ++ "\n"

end FunctionView

namespace SectionView

def text (shown : SectionView) : String :=
  "\n### " ++ shown.title ++ "\n" ++ String.join (shown.functions.map FunctionView.text)

end SectionView

namespace PropertyView

/-- The row of a property in the table of a class. -/
def row (property : PropertyView) : String :=
  "| `" ++ property.name ++ "` | `" ++ property.typeName ++ "` | " ++ property.visibility ++ " | " ++
    property.description ++ " |\n"

end PropertyView

namespace ClassView

def header (shown : ClassView) : String :=
  "\n## " ++ shown.kind ++ " " ++ shown.qualified ++ "\n\nVisibility: " ++ shown.visibility ++
    listBetween " | Modifiers: " " " shown.extra "" ++ "\n" ++
    listBetween "Platforms: " ", " shown.platforms "\n" ++
    listBetween "\nInherits: " ", " shown.inherited "\n"

def propertyTable (properties : List PropertyView) : String :=
  if properties.isEmpty then ""
  else
    "\n### Properties\n\n| Name | Type | Visibility | Description |\n" ++
      "|------|------|------------|-------------|\n" ++ String.join (properties.map PropertyView.row)

def text (shown : ClassView) : String :=
  header shown ++ between "\n" shown.description "\n" ++ tagList shown.tags ++ "\n" ++
    String.join (shown.sections.map SectionView.text) ++ propertyTable shown.properties

end ClassView

/-- The page of a package without front matter. -/
def packageBody (package : PackageView) : String :=
  "# Package " ++ package.name ++ "\n" ++ String.join (package.classes.map ClassView.text)

/-- What the front matter of all pages of a run depends on: whether there is any, the digest of the
sources, and the time at which each page is made. -/
structure Stamp where
  includeMetadata : Bool
  sourceHash : String
  generatedAt : Nat → String

/-- The front matter of the page at a place among the pages. -/
def Stamp.frontMatter (stamp : Stamp) (moduleName : String) (packageName : Option String)
    (place : Nat) : String :=
  if stamp.includeMetadata then
    FrontMatter.text ⟨moduleName, packageName, stamp.generatedAt place, stamp.sourceHash⟩
  else ""

def indexPage (stamp : Stamp) (moduleName : String) (packages : List PackageView) : RenderedFile :=
  ⟨"index.md", stamp.frontMatter moduleName none 0 ++ indexBody moduleName packages⟩

def packagePage (stamp : Stamp) (moduleName : String) (place : Nat) (package : PackageView) :
    RenderedFile :=
  ⟨Path.join "packages" package.file,
    stamp.frontMatter moduleName (some package.name) place ++ packageBody package⟩

/-- The index and the pages of all packages. -/
def pages (stamp : Stamp) (documented : Module) : List RenderedFile :=
  let packages := documented.packages.map PackageView.ofPackage
  indexPage stamp documented.name packages ::
    packages.mapIdx fun index package => packagePage stamp documented.name (index + 1) package

end Markdown

end ApiDocs
