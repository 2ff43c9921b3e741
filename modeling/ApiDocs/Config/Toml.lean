import ApiDocs.Config
import ApiDocs.Toml.Reader
import ApiDocs.Toml.Writer

/-!
# Configuration files

A configuration file is a TOML document with a table for the project, one for each pass, one for parsing
and one for the output.  Keys that mean nothing are left alone.
-/

namespace ApiDocs

namespace Toml

def string? : Toml → Option String
  | string text => some text
  | _ => none

def boolean? : Toml → Option Bool
  | boolean value => some value
  | _ => none

def natural? : Toml → Option Nat
  | integer value => if 0 ≤ value then some value.toNat else none
  | _ => none

/-- The elements of an array or of a list of tables. -/
def elements? : Toml → Option (List Toml)
  | array elements => some elements
  | tables elements => some (elements.map (table .header))
  | _ => none

def strings? (value : Toml) : Option (List String) := do
  (← value.elements?).mapM string?

/-- The values of a record's fields: those under their keys in a table, or the first elements of an
array. -/
def record? (keys : List String) (value : Toml) : Option (List Toml) :=
  match value with
  | table _ entries => keys.mapM fun key => entries.lookup key
  | value => do
      let elements ← value.elements?
      if elements.length < keys.length then none else some (elements.take keys.length)

end Toml

namespace PassConfig

def ofToml? (value : Toml) : Option PassConfig := do
  match ← value.record? ["source_roots", "platform", "targets"] with
  | [sourceRoots, platform, targets] =>
      return ⟨← sourceRoots.strings?, ← platform.string?, ← targets.strings?⟩
  | _ => none

def toToml (pass : PassConfig) : String :=
  Toml.assignment "source_roots" (Toml.stringList pass.sourceRoots) ++
    Toml.assignment "platform" (Toml.quote pass.platform) ++
    Toml.assignment "targets" (Toml.stringList pass.targets)

end PassConfig

namespace Config

def ofToml? (document : List (String × Toml)) : Option Config := do
  match ← (Toml.table .header document).record? ["project", "passes", "parsing", "output"] with
  | [project, passes, parsing, output] =>
      match ← project.record? ["name", "ignore_patterns", "docs_dir"],
          ← parsing.record? ["max_file_size"], ← output.record? ["formats", "include_metadata"] with
      | [name, ignorePatterns, docsDirectory], [maxFileSize], [formats, includeMetadata] =>
          return {
            name := ← name.string?
            ignorePatterns := ← ignorePatterns.strings?
            docsDirectory := ← docsDirectory.string?
            passes := ← (← passes.elements?).mapM PassConfig.ofToml?
            maxFileSize := ← maxFileSize.natural?
            formats := ← formats.strings?
            includeMetadata := ← includeMetadata.boolean? }
      | _, _, _ => none
  | _ => none

/-- Read and check the text of a configuration file. -/
def load (text : String) : Except ConfigError Config :=
  match (Toml.read? text).bind ofToml? with
  | none => .error .malformed
  | some config => do
      config.check
      return config

/-- The tables of the passes; without any, the list of passes is a value before all tables. -/
def passTables (passes : List PassConfig) : List String :=
  passes.map fun pass => "[[passes]]\n" ++ pass.toToml

/-- The text of a configuration file, with a blank line between each two tables. -/
def save (config : Config) : Except ConfigError String :=
  if 0x8000000000000000 ≤ config.maxFileSize then .error .outOfRange
  else
    let values := if config.passes.isEmpty then [Toml.assignment "passes" (Toml.stringList [])] else []
    let project := "[project]\n" ++ Toml.assignment "name" (Toml.quote config.name) ++
      Toml.assignment "ignore_patterns" (Toml.stringList config.ignorePatterns) ++
      Toml.assignment "docs_dir" (Toml.quote config.docsDirectory)
    let parsing := "[parsing]\n" ++ Toml.assignment "max_file_size" (toString config.maxFileSize)
    let output := "[output]\n" ++ Toml.assignment "formats" (Toml.stringList config.formats) ++
      Toml.assignment "include_metadata" (if config.includeMetadata then "true" else "false")
    .ok (String.intercalate "\n" (values ++ [project] ++ passTables config.passes ++ [parsing, output]))

end Config

end ApiDocs
