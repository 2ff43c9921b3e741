import ApiDocs.Glob.Reader
import ApiDocs.Text.Blank

/-!
# Ignore rules

A line of an ignore file is a glob for what to leave out, or behind an exclamation mark for what to keep
after all.  A glob with a slash before its end describes a path from the directory of the file, any other
glob a name at any depth; a slash at the end is for directories only.
-/

namespace ApiDocs

/-- What rules say about a file or directory. -/
inductive Verdict where
  | ignored
  | kept
deriving DecidableEq

structure IgnoreRule where
  glob : Glob
  verdict : Verdict
  directoriesOnly : Bool

namespace IgnoreRule

/-- A line without the blanks at its end; a space behind a backslash stays, and all before it. -/
def trimLine (line : List Char) : List Char :=
  if ['\\', ' '].isSuffixOf line then line else Text.trimEnd line

/-- The glob that is compared with whole paths.  Names behind a directory do not include the directory
itself. -/
def placed (isAnchored : Bool) (glob : List Char) : List Char :=
  let isName := !isAnchored && !glob.contains '/' && glob != ['*', '*']
  let whole := if isName then '*' :: '*' :: '/' :: glob else glob
  if ['/', '*', '*'].isSuffixOf whole then whole ++ ['/', '*'] else whole

/-- What a line says: whether to keep or to leave out, whether its glob starts at the directory of the
file, and the glob. -/
def parts (line : List Char) : Verdict × Bool × List Char :=
  match line with
  | '\\' :: '!' :: rest => (.ignored, false, '!' :: rest)
  | '\\' :: '#' :: rest => (.ignored, false, '#' :: rest)
  | '!' :: '/' :: rest => (.kept, true, rest)
  | '!' :: rest => (.kept, false, rest)
  | '/' :: rest => (.ignored, true, rest)
  | rest => (.ignored, false, rest)

/-- The rule of a line; comments and empty lines have none. -/
def ofLine (lenient : Bool) (line : List Char) : Except GlobError (Option IgnoreRule) :=
  let text := trimLine line
  if line.head? = some '#' ∨ text = [] then .ok none
  else
    let (verdict, isAnchored, body) := parts text
    let (directoriesOnly, glob) := match Text.withoutTail? ['/'] body with
      | some shorter => (true, (Text.withoutTail? ['\\'] shorter).getD shorter)
      | none => (false, body)
    (Glob.read lenient (placed isAnchored glob)).map fun glob => some ⟨glob, verdict, directoriesOnly⟩

/-- Whether a rule speaks about a path. -/
def applies (rule : IgnoreRule) (path : String) (isDirectory : Bool) : Bool :=
  (isDirectory || !rule.directoriesOnly) && rule.glob.accepts path

/-- What the last rule that speaks about a path says. -/
def verdict? (rules : List IgnoreRule) (path : String) (isDirectory : Bool) : Option Verdict :=
  (rules.reverse.find? fun rule => rule.applies path isDirectory).map IgnoreRule.verdict

/-- The line of an exclusion pattern: it is written like one for what to keep. -/
def exclusionLine (pattern : String) : List Char :=
  trimLine ('!' :: pattern.toList)

/-- The rules of exclusion patterns, or the first pattern that is no glob. -/
def ofPatterns (patterns : List String) : Except (String × GlobError) (List IgnoreRule) := do
  let rules ← patterns.mapM fun pattern =>
    (ofLine false ('!' :: pattern.toList)).mapError fun reason => (pattern, reason)
  return rules.reduceOption

end IgnoreRule

end ApiDocs
