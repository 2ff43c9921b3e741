/-!
# Strings, keys and blanks of TOML

Each reading step gives what it read and the text behind it, or nothing if the text is no TOML.
-/

namespace ApiDocs.Toml

/-- The text behind spaces and tabs. -/
def skipSpaces (text : List Char) : List Char :=
  text.dropWhile fun char => char = ' ' || char = '\t'

/-- The text behind a line feed, with or without a carriage return before it. -/
def newline? : List Char → Option (List Char)
  | '\n' :: rest => some rest
  | '\r' :: '\n' :: rest => some rest
  | _ => none

/-- Control characters other than the tab stand nowhere. -/
def isPlain (char : Char) : Bool :=
  char = '\t' || (32 ≤ char.toNat && char.toNat ≠ 127)

/-- The text behind a comment, if one starts here. -/
def skipComment : List Char → List Char
  | '#' :: rest => rest.dropWhile isPlain
  | text => text

/-- The text behind blanks, comments and line ends; each step takes at least a character. -/
def skipTrivia : Nat → List Char → List Char
  | 0, text => text
  | budget + 1, text =>
      let rest := skipComment (skipSpaces text)
      match newline? rest with
      | some behind => skipTrivia budget behind
      | none => rest

/-- The text behind the blanks and the comment that end a line; the end of the text ends a line too. -/
def endOfLine? (text : List Char) : Option (List Char) :=
  match skipComment (skipSpaces text) with
  | [] => some []
  | rest => newline? rest

def digitValue? (char : Char) : Option Nat :=
  if char.isDigit then some (char.toNat - '0'.toNat)
  else if 'a' ≤ char && char ≤ 'f' then some (char.toNat - 'a'.toNat + 10)
  else if 'A' ≤ char && char ≤ 'F' then some (char.toNat - 'A'.toNat + 10)
  else none

/-- The character whose code point hexadecimal digits spell. -/
def codePoint? (digits : List Char) : Option Char := do
  let code ← digits.foldlM (fun value digit => (digitValue? digit).map (16 * value + ·)) 0
  if code.isValidChar then some (Char.ofNat code) else none

/-- The character that an escape stands for, without its backslash. -/
def escape? : List Char → Option (Char × List Char)
  | 'b' :: rest => some ('\x08', rest)
  | 't' :: rest => some ('\t', rest)
  | 'n' :: rest => some ('\n', rest)
  | 'f' :: rest => some ('\x0c', rest)
  | 'r' :: rest => some ('\r', rest)
  | '"' :: rest => some ('"', rest)
  | '\\' :: rest => some ('\\', rest)
  | 'u' :: rest =>
      if rest.length < 4 then none
      else (codePoint? (rest.take 4)).map fun char => (char, rest.drop 4)
  | 'U' :: rest =>
      if rest.length < 8 then none
      else (codePoint? (rest.take 8)).map fun char => (char, rest.drop 8)
  | _ => none

/-- The text behind blanks and line ends; each step takes at least a character. -/
def skipBreaks : Nat → List Char → List Char
  | 0, text => text
  | budget + 1, text =>
      match newline? (skipSpaces text) with
      | some rest => skipBreaks budget rest
      | none => skipSpaces text

/-- The text behind the blanks and line ends that a backslash at the end of a line takes with it. -/
def skipLineEnds (text : List Char) : Option (List Char) :=
  (newline? (skipSpaces text)).map fun rest => skipBreaks (rest.length + 1) rest

/-- The rest of a string on one line, up to its closing quote; the budget is the length of the text. -/
def basicString : Nat → List Char → Option (List Char × List Char)
  | 0, _ => none
  | _, [] => none
  | _ + 1, '"' :: rest => some ([], rest)
  | budget + 1, '\\' :: rest => do
      let (char, rest) ← escape? rest
      let (chars, rest) ← basicString budget rest
      return (char :: chars, rest)
  | budget + 1, char :: rest =>
      if isPlain char then
        (basicString budget rest).map fun (chars, rest) => (char :: chars, rest)
      else none

def literalString : List Char → Option (List Char × List Char)
  | [] => none
  | '\'' :: rest => some ([], rest)
  | char :: rest =>
      if isPlain char then (literalString rest).map fun (chars, rest) => (char :: chars, rest)
      else none

/-- The rest of a string of several lines, up to its closing quotes.  As many as two quotes may stand right
before the closing ones, and a line ends in a line feed however it is written. -/
def multilineString (quote : Char) (escapes : Bool) : Nat → List Char → Option (List Char × List Char)
  | 0, _ => none
  | _, [] => none
  | budget + 1, char :: rest =>
      if char = quote ∧ rest.take 2 = [quote, quote] then
        let behind := rest.drop 2
        let extra := min 2 (behind.takeWhile (· = quote)).length
        some (List.replicate extra quote, behind.drop extra)
      else if char = '\\' ∧ escapes then
        match skipLineEnds rest with
        | some rest => multilineString quote escapes budget rest
        | none => do
            let (char, rest) ← escape? rest
            let (chars, rest) ← multilineString quote escapes budget rest
            return (char :: chars, rest)
      else
        match newline? (char :: rest) with
        | some rest => do
            let (chars, rest) ← multilineString quote escapes budget rest
            return ('\n' :: chars, rest)
        | none =>
            if isPlain char then do
              let (chars, rest) ← multilineString quote escapes budget rest
              return (char :: chars, rest)
            else none

/-- A line end right behind the opening quotes does not count. -/
def skipFirstNewline (text : List Char) : List Char :=
  (newline? text).getD text

/-- A string of any of the four kinds, from its opening quote on. -/
def stringLexeme (text : List Char) : Option (String × List Char) :=
  let budget := text.length + 1
  let found := match text with
    | '"' :: '"' :: '"' :: rest => multilineString '"' true budget (skipFirstNewline rest)
    | '\'' :: '\'' :: '\'' :: rest => multilineString '\'' false budget (skipFirstNewline rest)
    | '"' :: rest => basicString budget rest
    | '\'' :: rest => literalString rest
    | _ => none
  found.map fun (chars, rest) => (String.ofList chars, rest)

def isBareKeyChar (char : Char) : Bool :=
  char.isAlphanum || char = '_' || char = '-'

/-- One part of a key: bare, or a string on one line. -/
def simpleKey (text : List Char) : Option (String × List Char) :=
  match text with
  | '"' :: rest => (basicString (rest.length + 1) rest).map fun (chars, rest) => (String.ofList chars, rest)
  | '\'' :: rest => (literalString rest).map fun (chars, rest) => (String.ofList chars, rest)
  | text =>
      let chars := text.takeWhile isBareKeyChar
      if chars = [] then none else some (String.ofList chars, text.dropWhile isBareKeyChar)

/-- A key with blanks around it: its parts between dots. -/
def key : Nat → List Char → Option (List String × List Char)
  | 0, _ => none
  | budget + 1, text => do
      let (part, rest) ← simpleKey (skipSpaces text)
      match skipSpaces rest with
      | '.' :: rest => do
          let (parts, rest) ← key budget rest
          return (part :: parts, rest)
      | rest => return ([part], rest)

end ApiDocs.Toml
