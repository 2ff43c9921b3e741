import ApiDocs.Path
import ApiDocs.Text.Lines

/-!
# The command line

A command line names one command.  The configuration file and the wish for detailed messages may be given
before the command or behind it, and behind it they count more; every other option belongs to one command.
-/

namespace ApiDocs

inductive Command where
  /-- Write a default configuration file. -/
  | init (path : Option Path)
  /-- Write the documentation of every pass. -/
  | generate (source output : Option Path) (force : Bool)
  /-- Write only what has changed. -/
  | sync (dryRun failOnChanges : Bool)
  /-- Print the model of one source file. -/
  | dump (file : Path)
deriving DecidableEq

structure CommandLine where
  config : Option Path
  verbose : Bool
  command : Command
deriving DecidableEq

/-- Why a command line names no command to run. -/
inductive UsageError where
  | helpWanted
  | versionWanted
  /-- Nothing is given at all. -/
  | empty
  /-- Options are given, but no command. -/
  | noCommand
  | unknownCommand
  | unknownArgument
  /-- An option has no value or an empty one. -/
  | noValue
  | givenTwice
  /-- An option that is there or not has a value. -/
  | unexpectedValue
  | missingFile
deriving DecidableEq

namespace UsageError

def message : UsageError → String
  | helpWanted => "Usage: [-c FILE] [-v] init [-p DIR] | generate [-s DIR] [-o DIR] [--force] | " ++
      "sync [--dry-run] [--fail-on-changes] | dump FILE"
  | versionWanted => "0.1.0"
  | empty => "no arguments given"
  | noCommand => "no command given"
  | unknownCommand => "unknown command"
  | unknownArgument => "unknown argument"
  | noValue => "a value is required"
  | givenTwice => "an option is given twice"
  | unexpectedValue => "an option has no value"
  | missingFile => "a file is required"

end UsageError

/-- The names of the commands. -/
inductive CommandName where
  | init
  | generate
  | sync
  | dump
deriving DecidableEq

def CommandName.ofText? : String → Option CommandName
  | "init" => some init
  | "generate" => some generate
  | "sync" => some sync
  | "dump" => some dump
  | _ => none

/-- What can be given on a command line besides the command. -/
inductive Setting where
  | config
  | verbose
  | help
  | version
  | path
  | source
  | output
  | force
  | dryRun
  | failOnChanges
  /-- The file to print, which has no name on the command line. -/
  | file
deriving DecidableEq

namespace Setting

/-- Whether a setting has a value; the others are there or not. -/
def takesValue : Setting → Bool
  | config | path | source | output | file => true
  | verbose | help | version | force | dryRun | failOnChanges => false

/-- The name behind two dashes. -/
def longName? : Setting → Option String
  | config => some "config"
  | verbose => some "verbose"
  | help => some "help"
  | version => some "version"
  | path => some "path"
  | source => some "source"
  | output => some "output"
  | force => some "force"
  | dryRun => some "dry-run"
  | failOnChanges => some "fail-on-changes"
  | file => none

/-- The name behind one dash. -/
def shortName? : Setting → Option Char
  | config => some 'c'
  | verbose => some 'v'
  | help => some 'h'
  | version => some 'V'
  | path => some 'p'
  | source => some 's'
  | output => some 'o'
  | force | dryRun | failOnChanges | file => none

end Setting

/-- What has been read on one side of the command. -/
structure Reading where
  /-- The command that stands before, or nothing on its left side. -/
  command : Option CommandName
  given : List (Setting × Option String)
  /-- The setting read last; its value may still follow. -/
  pending : Option (Setting × Option String)

namespace Reading

/-- The options that may be given. -/
def options (reading : Reading) : List Setting :=
  match reading.command with
  | none => [.config, .verbose, .help, .version]
  | some .init => [.config, .verbose, .help, .path]
  | some .generate => [.config, .verbose, .help, .source, .output, .force]
  | some .sync => [.config, .verbose, .help, .dryRun, .failOnChanges]
  | some .dump => [.config, .verbose, .help]

def has (reading : Reading) (setting : Setting) : Bool :=
  reading.given.any fun entry => entry.1 == setting

def value? (reading : Reading) (setting : Setting) : Option String :=
  (reading.given.lookup setting).join

/-- Give a setting its value: a missing value, a second value and an empty value are refused in this
order. -/
def record (reading : Reading) (setting : Setting) (value : Option String) :
    Except UsageError Reading :=
  if setting = .help then .error .helpWanted
  else if setting = .version then .error .versionWanted
  else if setting.takesValue ∧ value = none then .error .noValue
  else if reading.has setting then .error .givenTwice
  else if value = some "" then .error .noValue
  else .ok { reading with given := (setting, value) :: reading.given }

/-- Record the setting read last. -/
def settle (reading : Reading) : Except UsageError Reading :=
  match reading.pending with
  | none => .ok reading
  | some (setting, value) => { reading with pending := none }.record setting value

/-- Read a setting whose value is complete. -/
def add (reading : Reading) (setting : Setting) (value : Option String) :
    Except UsageError Reading := do
  (← reading.settle).record setting value

/-- Read a setting whose value may still follow. -/
def hold (reading : Reading) (setting : Setting) (value : Option String) :
    Except UsageError Reading := do
  return { ← reading.settle with pending := some (setting, value) }

/-- Read what follows two dashes: a name, or a name and a value. -/
def readLong (reading : Reading) (text : List Char) : Except UsageError Reading :=
  let (name, value) := match Text.cutAt? '=' text with
    | some (name, value) => (String.ofList name, some (String.ofList value))
    | none => (String.ofList text, none)
  match reading.options.find? fun option => option.longName? == some name with
  | none => .error .unknownArgument
  | some setting =>
      match setting.takesValue, value with
      | false, some _ => .error .unexpectedValue
      | true, none => reading.hold setting none
      | _, value => reading.add setting value

/-- Read what follows one dash: names of one character each, the last maybe with its value. -/
def readShort (reading : Reading) : List Char → Except UsageError Reading
  | [] => .ok reading
  | name :: rest =>
      match reading.options.find? fun option => option.shortName? == some name with
      | none => .error .unknownArgument
      | some setting =>
          if setting.takesValue then
            match rest with
            | [] => reading.hold setting none
            | '=' :: value => reading.add setting (some (String.ofList value))
            | value => reading.add setting (some (String.ofList value))
          else do
            readShort (← reading.add setting none) rest

/-- Read an argument that is no option and no value of one: only printing takes a file. -/
def readFile (reading : Reading) (argument : String) : Except UsageError Reading :=
  let isRead := reading.has .file || reading.pending.any fun entry => entry.1 == .file
  if reading.command = some .dump ∧ ¬ isRead then reading.hold .file (some argument)
  else .error .unknownArgument

/-- Read arguments behind two dashes alone, none of which is an option. -/
def readPlain (reading : Reading) : List String → Except UsageError Reading
  | [] => .ok reading
  | argument :: rest =>
      if reading.command = none then
        let isCommand := argument == "help" || (CommandName.ofText? argument).isSome
        .error (if isCommand then .unknownArgument else .unknownCommand)
      else do
        readPlain (← reading.readFile argument) rest

/-- Why help for the given commands ends the run: it is wanted, unless there is no such command. -/
def helpFor : List String → UsageError
  | [] => .helpWanted
  | [name] =>
      if name = "help" ∨ (CommandName.ofText? name).isSome then .helpWanted else .unknownCommand
  | _ :: _ :: _ => .unknownCommand

/-- Read the arguments on one side of the command; on the left side up to the command, which is given
back with the arguments behind it. -/
def read (reading : Reading) :
    List String → Except UsageError (Reading × Option (CommandName × List String))
  | [] => .ok (reading, none)
  | argument :: rest =>
      match argument.toList with
      | ['-', '-'] => do return (← reading.readPlain rest, none)
      | '-' :: '-' :: text => do read (← reading.readLong text) rest
      | '-' :: first :: text => do read (← reading.readShort (first :: text)) rest
      | _ =>
          match reading.pending with
          | some (setting, none) =>
              read { reading with pending := some (setting, some argument) } rest
          | _ =>
              match reading.command, CommandName.ofText? argument with
              | some _, _ => do read (← reading.readFile argument) rest
              | none, some command => .ok (reading, some (command, rest))
              | none, none => .error (if argument = "help" then helpFor rest else .unknownCommand)

end Reading

namespace CommandLine

/-- The command whose options have been read. -/
def commandOf (name : CommandName) (reading : Reading) : Except UsageError Command :=
  match name with
  | .init => .ok (.init (reading.value? .path))
  | .generate => .ok (.generate (reading.value? .source) (reading.value? .output) (reading.has .force))
  | .sync => .ok (.sync (reading.has .dryRun) (reading.has .failOnChanges))
  | .dump =>
      match reading.value? .file with
      | some file => .ok (.dump file)
      | none => .error .missingFile

/-- Read a command line.  What is wrong behind the command is reported first. -/
def parse (arguments : List String) : Except UsageError CommandLine := do
  let (left, found) ← Reading.read ⟨none, [], none⟩ arguments
  match found with
  | none =>
      if (← left.settle).given = [] then throw .empty else throw .noCommand
  | some (name, rest) =>
      let (right, _) ← Reading.read ⟨some name, [], none⟩ rest
      let right ← right.settle
      let command ← commandOf name right
      let left ← left.settle
      return {
        config := right.value? .config <|> left.value? .config
        verbose := right.has .verbose || left.has .verbose
        command }

end CommandLine

end ApiDocs
