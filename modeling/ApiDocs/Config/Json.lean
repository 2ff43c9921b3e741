import ApiDocs.Config
import ApiDocs.Json.Record

/-!
# Configurations in JSON

In JSON a configuration has the same tables and keys as in its file.
-/

namespace ApiDocs

namespace PassConfig

def toJson (pass : PassConfig) : Json :=
  .object
    [("source_roots", .strings pass.sourceRoots),
     ("platform", .string pass.platform),
     ("targets", .strings pass.targets)]

def ofJson? (json : Json) : Option PassConfig := do
  match ← json.record? ["source_roots", "platform", "targets"] with
  | [sourceRoots, platform, targets] =>
      return ⟨← sourceRoots.strings?, ← platform.string?, ← targets.strings?⟩
  | _ => none

end PassConfig

namespace Config

def toJson (config : Config) : Json :=
  .object
    [("project", .object
      [("name", .string config.name),
       ("ignore_patterns", .strings config.ignorePatterns),
       ("docs_dir", .string config.docsDirectory)]),
     ("passes", .ofList PassConfig.toJson config.passes),
     ("parsing", .object [("max_file_size", .natural config.maxFileSize)]),
     ("output", .object
      [("formats", .strings config.formats),
       ("include_metadata", .bool config.includeMetadata)])]

def ofJson? (json : Json) : Option Config := do
  match ← json.record? ["project", "passes", "parsing", "output"] with
  | [project, passes, parsing, output] =>
      match ← project.record? ["name", "ignore_patterns", "docs_dir"],
          ← parsing.record? ["max_file_size"], ← output.record? ["formats", "include_metadata"] with
      | [name, ignorePatterns, docsDirectory], [maxFileSize], [formats, includeMetadata] =>
          return {
            name := ← name.string?
            ignorePatterns := ← ignorePatterns.strings?
            docsDirectory := ← docsDirectory.string?
            passes := ← passes.list? PassConfig.ofJson?
            maxFileSize := ← maxFileSize.natural?
            formats := ← formats.strings?
            includeMetadata := ← includeMetadata.bool? }
      | _, _, _ => none
  | _ => none

end Config

end ApiDocs
