import ApiDocs.Json.Writer
import ApiDocs.Markdown.Page
import ApiDocs.Model.Json

/-!
# Rendering

A module is rendered in formats: as one JSON file for tools, or as Markdown pages for readers.
-/

namespace ApiDocs

inductive OutputFormat where
  | json
  | markdown
deriving DecidableEq

namespace OutputFormat

def display : OutputFormat → String
  | json => "json"
  | markdown => "markdown"

/-- The format with a name, for which `md` is another name of Markdown. -/
def ofName? : String → Option OutputFormat
  | "json" => some json
  | "markdown" | "md" => some markdown
  | _ => none

end OutputFormat

namespace Module

/-- The text of a module in JSON. -/
def jsonText (documented : Module) : String :=
  documented.toJson.pretty

/-- The files of a module in a format. -/
def render (stamp : Markdown.Stamp) (documented : Module) : OutputFormat → List RenderedFile
  | .json => [⟨"module.json", documented.jsonText ++ "\n"⟩]
  | .markdown => Markdown.pages stamp documented

/-- The files of a module in several formats, one format after the other; the clock counts all files. -/
def renderAll (stamp : Markdown.Stamp) (documented : Module) : List OutputFormat → List RenderedFile
  | [] => []
  | first :: rest =>
      let files := documented.render stamp first
      files ++ renderAll { stamp with generatedAt := fun place => stamp.generatedAt (files.length + place) }
        documented rest

end Module

end ApiDocs
