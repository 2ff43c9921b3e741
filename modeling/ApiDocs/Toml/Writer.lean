/-!
# Writing TOML

A string is written in the plainest of the forms that need few escapes: basic, literal, basic on several
lines, literal on several lines.  A list of more than one string has a line for each.
-/

namespace ApiDocs.Toml

/-- The length of the longest run of a character. -/
def longestRun (char : Char) : Nat → List Char → Nat
  | run, [] => run
  | run, first :: rest =>
      if first = char then longestRun char (run + 1) rest else max run (longestRun char 0 rest)

/-- Control characters other than the tab and the line feed have to be escaped. -/
def needsEscape (char : Char) : Bool :=
  (char.toNat < 32 && char ≠ '\t' && char ≠ '\n') || char.toNat = 127

/-- A character below U+0100 as an escape of four digits. -/
def escapeCode (char : Char) : List Char :=
  ['\\', 'u', '0', '0'] ++
    [char.toNat / 16, char.toNat % 16].map fun digit => (Nat.digitChar digit).toUpper

/-- A character of a basic string other than a quote. -/
def escapeBasic (severalLines : Bool) (char : Char) : List Char :=
  match char with
  | '\x08' => ['\\', 'b']
  | '\t' => ['\\', 't']
  | '\n' => if severalLines then ['\n'] else ['\\', 'n']
  | '\x0c' => ['\\', 'f']
  | '\r' => ['\\', 'r']
  | '\\' => ['\\', '\\']
  | char => if needsEscape char then escapeCode char else [char]

/-- The characters of a basic string; of quotes in a row only so many stand as they are. -/
def escapeAll (severalLines : Bool) (allowedQuotes : Nat) : Nat → List Char → List Char
  | _, [] => []
  | seen, char :: rest =>
      if char = '"' then
        if seen < allowedQuotes then '"' :: escapeAll severalLines allowedQuotes (seen + 1) rest
        else '\\' :: '"' :: escapeAll severalLines allowedQuotes 0 rest
      else escapeBasic severalLines char ++ escapeAll severalLines allowedQuotes 0 rest

def basicForm (text : List Char) : List Char :=
  '"' :: escapeAll false 0 0 text ++ ['"']

def literalForm (text : List Char) : List Char :=
  '\'' :: text ++ ['\'']

/-- The opening quotes of a string on several lines stand on a line of their own if it has a line feed. -/
def multilineForm (quote : Char) (text written : List Char) : List Char :=
  let quotes := List.replicate 3 quote
  quotes ++ (if '\n' ∈ text then ['\n'] else []) ++ written ++ quotes

/-- The form in which a string is written. -/
def quoteChars (text : List Char) : List Char :=
  let hasEscape := text.any needsEscape
  let hasBackslash := text.contains '\\'
  let hasNewline := text.contains '\n'
  let quotes := longestRun '"' 0 text
  let apostrophes := longestRun '\'' 0 text
  if !hasEscape && !hasBackslash && quotes == 0 && !hasNewline then basicForm text
  else if !hasEscape && apostrophes == 0 && !hasNewline then literalForm text
  else if !hasEscape && !hasBackslash && quotes ≤ 2 then
    multilineForm '"' text (escapeAll true 2 0 text)
  else if !hasEscape && apostrophes ≤ 2 then multilineForm '\'' text text
  else if hasNewline then multilineForm '"' text (escapeAll true 2 0 text)
  else basicForm text

def quote (text : String) : String :=
  String.ofList (quoteChars text.toList)

/-- A list of strings: on one line if it has at most one, else on a line for each. -/
def stringList : List String → String
  | [] => "[]"
  | [text] => "[" ++ quote text ++ "]"
  | texts => "[\n" ++ String.join (texts.map fun text => "    " ++ quote text ++ ",\n") ++ "]"

/-- A line that puts a value under a key. -/
def assignment (key value : String) : String :=
  key ++ " = " ++ value ++ "\n"

end ApiDocs.Toml
