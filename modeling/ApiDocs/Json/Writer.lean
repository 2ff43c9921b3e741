import ApiDocs.Json

/-!
# Writing JSON

A value is written compactly or, for readers, with one element or member a line and two blanks for each
level.
-/

namespace ApiDocs.Json

/-- A character of a string as it stands between quotes: only quotes, backslashes and the characters below
the space are escaped. -/
def escapeChar (char : Char) : List Char :=
  match char with
  | '"' => ['\\', '"']
  | '\\' => ['\\', '\\']
  | '\x08' => ['\\', 'b']
  | '\x0c' => ['\\', 'f']
  | '\n' => ['\\', 'n']
  | '\r' => ['\\', 'r']
  | '\t' => ['\\', 't']
  | char =>
      if char.toNat < 32 then
        ['\\', 'u', '0', '0', Nat.digitChar (char.toNat / 16), Nat.digitChar (char.toNat % 16)]
      else [char]

def quote (text : String) : String :=
  "\"" ++ String.ofList (text.toList.flatMap escapeChar) ++ "\""

/-- The text of a value on one line and without blanks. -/
def compact : Json → String
  | null => "null"
  | bool value => if value then "true" else "false"
  | natural value => toString value
  | number literal => literal
  | string text => quote text
  | array elements => "[" ++ String.intercalate "," (compactAll elements) ++ "]"
  | object members => "\x7b" ++ String.intercalate "," (compactMembers members) ++ "\x7d"
where
  compactAll : List Json → List String
    | [] => []
    | first :: rest => first.compact :: compactAll rest
  compactMembers : List (String × Json) → List String
    | [] => []
    | (name, value) :: rest => (quote name ++ ":" ++ value.compact) :: compactMembers rest

/-- A line feed and the blanks of a level. -/
def newLine (level : Nat) : String :=
  "\n" ++ String.ofList (List.replicate (2 * level) ' ')

/-- Items between brackets, each on a line of its own one level deeper; empty brackets stay together. -/
def block (opening closing : String) (level : Nat) : List String → String
  | [] => opening ++ closing
  | first :: rest =>
      opening ++ newLine (level + 1) ++ String.intercalate ("," ++ newLine (level + 1)) (first :: rest) ++
        newLine level ++ closing

/-- The text of a value that stands at a level of indentation. -/
def prettyAt (level : Nat) : Json → String
  | array elements => block "[" "]" level (prettyAll (level + 1) elements)
  | object members => block "\x7b" "\x7d" level (prettyMembers (level + 1) members)
  | value => value.compact
where
  prettyAll (level : Nat) : List Json → List String
    | [] => []
    | first :: rest => prettyAt level first :: prettyAll level rest
  prettyMembers (level : Nat) : List (String × Json) → List String
    | [] => []
    | (name, value) :: rest => (quote name ++ ": " ++ prettyAt level value) :: prettyMembers level rest

def pretty (value : Json) : String :=
  prettyAt 0 value

end ApiDocs.Json
