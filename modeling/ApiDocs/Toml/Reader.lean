import ApiDocs.Toml.Number

/-!
# Reading TOML

A document is read line by line: a header opens a table, and a key with a value adds to the table opened
last.
-/

namespace ApiDocs.Toml

/-- Values nest and keys are dotted less often than this. -/
def nestingLimit : Nat := 80

/-- A key with few enough parts. -/
def keyPath (text : List Char) : Option (List String × List Char) :=
  key (nestingLimit - 1) text

/-- A value at a depth of nesting.  The budget bounds how deeply values and their elements follow one
another; a text needs no more than its length. -/
def value (depth : Nat) : Nat → List Char → Option (Toml × List Char)
  | 0, _ => none
  | budget + 1, text =>
      match text with
      | '[' :: rest =>
          if depth + 1 < nestingLimit then
            (elements (depth + 1) budget rest).map fun (values, rest) => (array values, rest)
          else none
      | '\x7b' :: rest =>
          if depth + 1 < nestingLimit then
            match skipSpaces rest with
            | '\x7d' :: rest => some (table .braces [], rest)
            | rest => (pairs (depth + 1) budget [] rest).map fun (entries, rest) =>
                (table .braces entries, rest)
          else none
      | '"' :: _ => (stringLexeme text).map fun (chars, rest) => (string chars, rest)
      | '\'' :: _ => (stringLexeme text).map fun (chars, rest) => (string chars, rest)
      | 't' :: 'r' :: 'u' :: 'e' :: rest => some (boolean true, rest)
      | 'f' :: 'a' :: 'l' :: 's' :: 'e' :: rest => some (boolean false, rest)
      | text => number text
where
  /-- The elements of an array up to its closing bracket; a comma may stand behind the last one. -/
  elements (depth : Nat) : Nat → List Char → Option (List Toml × List Char)
    | 0, _ => none
    | budget + 1, text =>
        match skipTrivia (text.length + 1) text with
        | ']' :: rest => some ([], rest)
        | text => do
            let (first, rest) ← value depth budget text
            match skipTrivia (rest.length + 1) rest with
            | ',' :: rest => do
                let (others, rest) ← elements depth budget rest
                return (first :: others, rest)
            | ']' :: rest => return ([first], rest)
            | _ => none
  /-- The pairs of a table up to its closing brace, added to those before them. -/
  pairs (depth : Nat) : Nat → List (String × Toml) → List Char →
      Option (List (String × Toml) × List Char)
    | 0, _, _ => none
    | budget + 1, entries, text => do
        let (path, rest) ← keyPath text
        let (held, rest) ← value depth budget (skipSpaces (← behind? '=' rest))
        let entries ← addAt path held .braces entries
        match skipSpaces rest with
        | ',' :: rest => pairs depth budget entries rest
        | '\x7d' :: rest => return (entries, rest)
        | _ => none

/-- A document being read: its tables, and the path of the table opened last. -/
structure Document where
  entries : List (String × Toml)
  opened : List String

namespace Document

/-- Open the table of a header. -/
def openAt (document : Document) (isList : Bool) (path : List String) : Option Document := do
  let key ← path.getLast?
  let change := if isList then openNextTable key else openTable key
  let entries ← changeAt false change path.dropLast .header document.entries
  return ⟨entries, path⟩

/-- Add a value to the table opened last. -/
def add (document : Document) (path : List String) (value : Toml) : Option Document := do
  let entries ← changeAt false (addAt path value) document.opened .header document.entries
  return { document with entries }

/-- Read one line that is not blank. -/
def readLine (document : Document) (text : List Char) : Option (Document × List Char) := do
  match text with
  | '[' :: '[' :: rest =>
      let (path, rest) ← keyPath rest
      let rest ← behind? ']' (← behind? ']' rest)
      return (← document.openAt true path, ← endOfLine? rest)
  | '[' :: rest =>
      let (path, rest) ← keyPath rest
      let rest ← behind? ']' rest
      return (← document.openAt false path, ← endOfLine? rest)
  | text =>
      let (path, rest) ← keyPath text
      let rest := skipSpaces (← behind? '=' rest)
      let (held, rest) ← value 0 (2 * rest.length + 1) rest
      return (← document.add path held, ← endOfLine? rest)

/-- Read the lines of a text, of which there are no more than the budget. -/
def readLines : Nat → Document → List Char → Option Document
  | 0, _, _ => none
  | budget + 1, document, text =>
      match skipTrivia (text.length + 1) text with
      | [] => some document
      | text => do
          let (document, rest) ← document.readLine text
          readLines budget document rest

end Document

/-- The table of a document; a byte order mark may stand before it. -/
def read? (text : String) : Option (List (String × Toml)) := do
  let chars := match text.toList with
    | '\ufeff' :: rest => rest
    | chars => chars
  let document ← Document.readLines (chars.length + 1) ⟨[], []⟩ chars
  return document.entries

end ApiDocs.Toml
