import ApiDocs.Changes
import ApiDocs.Config.Toml
import ApiDocs.Declaration.Resolve
import ApiDocs.Model.Declared
import ApiDocs.Model.Merge
import ApiDocs.Rendering
import ApiDocs.Source

/-!
# Projects

A run of the program reads the configuration and the sources of a project and brings its documentation up
to date.  Everything is read and compared before the first file is written.
-/

namespace ApiDocs

/-- What a run needs to know about the world outside the file system. -/
structure Surroundings where
  /-- The syntax tree of a source text. -/
  syntaxOf : String → SyntaxNode
  /-- When the file at a place among the rendered files was rendered. -/
  clock : Nat → String

/-- What a run leaves behind. -/
structure Outcome where
  system : FileSystem
  /-- The files that have been written, in order. -/
  written : List Location
  printed : String
  failure : Option Failure

namespace Outcome

/-- A run that has changed nothing. -/
def unchanged (system : FileSystem) (failure : Option Failure) : Outcome :=
  ⟨system, [], "", failure⟩

end Outcome

namespace Project

/-- The digest of a collection of sources, whatever their order. -/
def fingerprint (digests : List String) : String :=
  let sorted := digests.mergeSort fun first second => (compare first second).isLE
  Sha256.hexDigest (String.join sorted)

/-- The documentation of one pass and the digests of its sources.  A given source root stands for the
roots of the pass. -/
def documentPass (surroundings : Surroundings) (config : Config) (system : FileSystem)
    (source : Option Path) (pass : PassConfig) : Except Failure (Module × List String) := do
  let platform ← pass.platformData.mapError Failure.configuration
  let roots := match source with
    | some root => [root]
    | none => pass.sourceRoots
  let read := Source.readBelow surroundings.syntaxOf config.ignorePatterns config.maxFileSize system
  let sources := (← roots.mapM read).flatten
  let files := sources.map Source.file
  let resolved := files.map (SourceFile.resolve (ClassIndex.ofFiles files))
  return (Module.ofFiles config.name platform resolved, sources.map Source.digest)

/-- The documentation of all passes and the digest of all sources. -/
def document (surroundings : Surroundings) (config : Config) (system : FileSystem)
    (source : Option Path) : Except Failure (Module × String) := do
  let passes ← config.passes.mapM (documentPass surroundings config system source)
  return (Module.merge config.name (passes.map Prod.fst), fingerprint (passes.flatMap Prod.snd))

def formats (config : Config) : Except Failure (List OutputFormat) :=
  config.formats.mapM fun name =>
    match OutputFormat.ofName? name with
    | some format => .ok format
    | none => .error (.configuration (.unsupportedFormat name))

/-- What a run is going to write below a directory. -/
structure Plan where
  directory : Path
  files : List RenderedFile
  changes : Changes

/-- Render the documentation and compare it with what is there. -/
def plan (surroundings : Surroundings) (config : Config) (system : FileSystem)
    (source : Option Path) (directory : Path) : Except Failure Plan := do
  let (documented, sourceHash) ← document surroundings config system source
  let stamp := ⟨config.includeMetadata, sourceHash, surroundings.clock⟩
  let files := documented.renderAll stamp (← formats config)
  let changes ← (Changes.between system directory files).mapError Failure.access
  return ⟨directory, files, changes⟩

/-- Write files below a directory, one after the other, until one cannot be written. -/
def writeFiles (directory : Path) (system : FileSystem) : List RenderedFile → Outcome
  | [] => .unchanged system none
  | file :: rest =>
      let target := Path.join directory file.path
      match system.writeBelow target file.content.toUTF8 with
      | (after, .error reason) => .unchanged after (some (.output reason))
      | (after, .ok ()) =>
          let outcome := writeFiles directory after rest
          { outcome with written := (after.locate target).toOption.toList ++ outcome.written }

/-- Write the files of a plan: all of them, or those that have changed. -/
def Plan.write (plan : Plan) (system : FileSystem) (force : Bool) : Outcome :=
  writeFiles plan.directory system (plan.files.filter fun file => force || plan.changes.includes file.path)

/-- Write the default configuration into a directory, unless there is one. -/
def init (system : FileSystem) (directory : Path) : Outcome :=
  match system.makeDirectories directory with
  | (after, .error reason) => .unchanged after (some (.output reason))
  | (after, .ok ()) =>
      let target := Path.join directory "jdoc.toml"
      if after.isPresent target then .unchanged after none
      else
        match Config.default.save with
        | .error reason => .unchanged after (some (.configuration reason))
        | .ok text =>
            match after.writeText target text with
            | .error reason => .unchanged after (some (.access reason))
            | .ok written => ⟨written, (written.locate target).toOption.toList, "", none⟩

/-- Write the documentation into a directory. -/
def generate (surroundings : Surroundings) (config : Config) (system : FileSystem)
    (source : Option Path) (directory : Path) (force : Bool) : Outcome :=
  match plan surroundings config system source directory with
  | .error reason => .unchanged system (some reason)
  | .ok plan => plan.write system force

/-- Bring the documentation up to date, or say that it is not. -/
def sync (surroundings : Surroundings) (config : Config) (system : FileSystem)
    (dryRun failOnChanges : Bool) : Outcome :=
  match plan surroundings config system none config.docsDirectory with
  | .error reason => .unchanged system (some reason)
  | .ok plan =>
      if plan.changes.count = 0 then .unchanged system none
      else if failOnChanges then .unchanged system (some (.stale plan.changes.count))
      else if dryRun then .unchanged system none
      else plan.write system false

/-- The text of the model of one source file, documented by the first pass. -/
def modelText (surroundings : Surroundings) (config : Config) (system : FileSystem) (file : Path) :
    Except Failure String := do
  let pass ← match config.passes with
    | first :: _ => pure first
    | [] => throw (.configuration .noPasses)
  let platform ← pass.platformData.mapError Failure.configuration
  let source ← Source.read surroundings.syntaxOf config.maxFileSize system file
  let resolved := source.file.resolve (ClassIndex.ofFiles [source.file])
  let documented := Module.merge config.name [Module.ofFiles config.name platform [resolved]]
  return documented.jsonText ++ "\n"

/-- Print the model of one source file. -/
def dump (surroundings : Surroundings) (config : Config) (system : FileSystem) (file : Path) : Outcome :=
  match modelText surroundings config system file with
  | .error reason => .unchanged system (some reason)
  | .ok text => ⟨system, [], text, none⟩

def execute (surroundings : Surroundings) (config : Config) (system : FileSystem) : Command → Outcome
  | .init path => init system (path.getD ".")
  | .generate source output force =>
      generate surroundings config system source (output.getD config.docsDirectory) force
  | .sync dryRun failOnChanges => sync surroundings config system dryRun failOnChanges
  | .dump file => dump surroundings config system file

/-- The configuration at a path, or else the first that is found in the working directory; the default one
if there is none. -/
def configuration (system : FileSystem) (path : Option Path) : Except Failure Config :=
  let candidates := match path with
    | some path => [path]
    | none => ["Jdoc.toml", "jdoc.toml", ".jdoc.toml"]
  match candidates.find? system.isPresent with
  | none => .ok .default
  | some found => do
      let text ← (system.readText found).mapError Failure.access
      (Config.load text).mapError Failure.configuration

/-- Run a command line. -/
def run (surroundings : Surroundings) (system : FileSystem) (arguments : List String) : Outcome :=
  match CommandLine.parse arguments with
  | .error reason => .unchanged system (some (.usage reason))
  | .ok line =>
      match configuration system line.config with
      | .error reason => .unchanged system (some reason)
      | .ok config => execute surroundings config system line.command

end Project

end ApiDocs
