import ApiDocs.Path
import ApiDocs.Platform
import ApiDocs.Rendering

/-!
# Configuration

A configuration says where the sources of each pass are, what to leave out, and where and in which formats
the documentation goes.  A checked configuration has a pass, known platforms and known formats.
-/

namespace ApiDocs

structure PassConfig where
  sourceRoots : List Path
  /-- The platform as written. -/
  platform : String
  targets : List String
deriving DecidableEq

structure Config where
  /-- The name of the documented module. -/
  name : String
  /-- What to leave out below the source roots. -/
  ignorePatterns : List String
  /-- Where the documentation goes. -/
  docsDirectory : Path
  passes : List PassConfig
  /-- The most bytes that a source file may have. -/
  maxFileSize : Nat
  formats : List String
  /-- Whether pages start with front matter. -/
  includeMetadata : Bool
deriving DecidableEq

/-- What is wrong with a configuration. -/
inductive ConfigError where
  | malformed
  | noPasses
  | unknownPlatform (reason : PlatformError)
  | unsupportedFormat (name : String)
  /-- A number that TOML cannot hold. -/
  | outOfRange
deriving DecidableEq

namespace ConfigError

def message : ConfigError → String
  | malformed => "TOML parse error"
  | noPasses => "at least one [[passes]] entry is required"
  | unknownPlatform reason => reason.message
  | unsupportedFormat name => "Unsupported output format: " ++ name
  | outOfRange => "out-of-range value for u64 type"

end ConfigError

namespace PassConfig

/-- The platform and the targets of a pass; targets are taken as they are. -/
def platformData (pass : PassConfig) : Except ConfigError PlatformData :=
  match Platform.parse pass.platform.toList with
  | .ok platform => .ok ⟨platform, pass.targets⟩
  | .error reason => .error (.unknownPlatform reason)

end PassConfig

namespace Config

/-- The configuration of a project without a configuration file. -/
def default : Config :=
  { name := "root"
    ignorePatterns := ["target/", "build/", ".git/"]
    docsDirectory := "docs"
    passes := [⟨["src"], "jvm", ["jvm"]⟩]
    maxFileSize := 1024 * 1024
    formats := ["json", "markdown"]
    includeMetadata := true }

/-- A configuration names formats by their full names. -/
def checkFormat (name : String) : Except ConfigError Unit :=
  if name = "json" ∨ name = "markdown" then .ok () else .error (.unsupportedFormat name)

/-- Passes are checked before formats, each in order. -/
def check (config : Config) : Except ConfigError Unit := do
  if config.passes.isEmpty then throw .noPasses
  config.passes.forM fun pass => do
    let _ ← pass.platformData
  config.formats.forM checkFormat

end Config

end ApiDocs
