import ApiDocs.CommandLine
import ApiDocs.Config
import ApiDocs.FileSystem
import ApiDocs.Glob.Reader

/-!
# Failures

Why a run of the program failed, and what it says about that.
-/

namespace ApiDocs

inductive Failure where
  | usage (reason : UsageError)
  | configuration (reason : ConfigError)
  /-- An exclusion pattern, whose line of rules is no glob. -/
  | exclusion (pattern line : String) (reason : GlobError)
  | missingRoot (root : Path)
  | tooLarge (path : Path)
  /-- A file to print that has not the name of a source file. -/
  | noSource (path : Path)
  /-- The configuration, a source or a file to compare with could not be read or written. -/
  | access (reason : FileError)
  /-- A directory or a file of the output could not be made. -/
  | output (reason : FileError)
  /-- So many files are not up to date. -/
  | stale (count : Nat)
deriving DecidableEq

namespace Failure

def message : Failure → String
  | usage reason => reason.message
  | configuration reason => "Configuration error: " ++ reason.message
  | exclusion pattern line reason =>
      "Configuration error: Invalid ignore pattern '" ++ pattern ++ "': error parsing glob '" ++ line ++
        "': " ++ reason.message
  | missingRoot root => "File system error: Source root " ++ root ++ " does not exist"
  | tooLarge path => "Parser error: File " ++ path ++ " exceeds maximum size limit"
  | noSource path => "Parser error: No front end handles file: " ++ path
  | access reason => "IO error: " ++ reason.message
  | output reason => reason.message
  | stale count => toString count ++ " generated file(s) are out of date"

end Failure

end ApiDocs
