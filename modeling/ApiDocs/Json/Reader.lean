import ApiDocs.Json
import ApiDocs.SortedMap

/-!
# Reading JSON

The reader takes one value with blanks around it.  The members of an object are put in the order of their
names, and of two members of one name the later stays.  A reading step gives what it read and the text
behind it.
-/

namespace ApiDocs.Json

def skipBlanks (text : List Char) : List Char :=
  text.dropWhile fun char => char = ' ' || char = '\n' || char = '\r' || char = '\t'

def hexValue? (char : Char) : Option Nat :=
  if char.isDigit then some (char.toNat - '0'.toNat)
  else if 'a' ≤ char && char ≤ 'f' then some (char.toNat - 'a'.toNat + 10)
  else if 'A' ≤ char && char ≤ 'F' then some (char.toNat - 'A'.toNat + 10)
  else none

/-- The number that hexadecimal digits spell. -/
def ofHex? (digits : List Char) : Option Nat :=
  digits.foldlM (fun value digit => (hexValue? digit).map (16 * value + ·)) 0

/-- The character with a code point, surrogates excepted. -/
def charOf? (code : Nat) : Option Char :=
  if code.isValidChar then some (Char.ofNat code) else none

/-- The character that a letter behind a backslash stands for. -/
def escaped? : Char → Option Char
  | '"' => some '"'
  | '\\' => some '\\'
  | '/' => some '/'
  | 'b' => some '\x08'
  | 'f' => some '\x0c'
  | 'n' => some '\n'
  | 'r' => some '\r'
  | 't' => some '\t'
  | _ => none

/-- The rest of a string up to its closing quote.  Two escaped surrogates make one character; a lone
surrogate and an unescaped control character make no string. -/
def readString : List Char → Option (List Char × List Char)
  | '"' :: rest => some ([], rest)
  | '\\' :: 'u' :: a :: b :: c :: d :: '\\' :: 'u' :: e :: f :: g :: h :: rest => do
      let first ← ofHex? [a, b, c, d]
      let second ← ofHex? [e, f, g, h]
      if 0xD800 ≤ first ∧ first < 0xDC00 ∧ 0xDC00 ≤ second ∧ second < 0xE000 then
        let char ← charOf? (0x10000 + 0x400 * (first - 0xD800) + (second - 0xDC00))
        let (chars, rest) ← readString rest
        return (char :: chars, rest)
      else
        let char ← charOf? first
        let (chars, rest) ← readString ('\\' :: 'u' :: e :: f :: g :: h :: rest)
        return (char :: chars, rest)
  | '\\' :: 'u' :: a :: b :: c :: d :: rest => do
      let char ← charOf? (← ofHex? [a, b, c, d])
      let (chars, rest) ← readString rest
      return (char :: chars, rest)
  | '\\' :: letter :: rest => do
      let char ← escaped? letter
      let (chars, rest) ← readString rest
      return (char :: chars, rest)
  | char :: rest =>
      if char.toNat < 32 ∨ char = '\\' then none
      else (readString rest).map fun (chars, rest) => (char :: chars, rest)
  | [] => none

/-- The longest run of digits, which has at least one. -/
def readDigits (text : List Char) : Option (List Char × List Char) :=
  let digits := text.takeWhile Char.isDigit
  if digits = [] then none else some (digits, text.dropWhile Char.isDigit)

/-- The whole part of a number has no needless zero at its start. -/
def readWhole (text : List Char) : Option (List Char × List Char) := do
  let (digits, rest) ← readDigits text
  if digits.head? = some '0' ∧ digits.length > 1 then none else some (digits, rest)

def readFraction : List Char → Option (List Char × List Char)
  | '.' :: rest => (readDigits rest).map fun (digits, rest) => ('.' :: digits, rest)
  | text => some ([], text)

def readExponent : List Char → Option (List Char × List Char)
  | mark :: rest =>
      if mark = 'e' ∨ mark = 'E' then
        let (sign, rest) := match rest with
          | '+' :: rest => (['+'], rest)
          | '-' :: rest => (['-'], rest)
          | rest => ([], rest)
        (readDigits rest).map fun (digits, rest) => (mark :: sign ++ digits, rest)
      else some ([], mark :: rest)
  | [] => some ([], [])

/-- A number is a value when it is a digit sequence below 2^64. -/
def ofLiteral (literal : List Char) : Json :=
  let value := literal.foldl (fun value digit => 10 * value + (digit.toNat - '0'.toNat)) 0
  if literal.all Char.isDigit ∧ value < 0x10000000000000000 then natural value
  else number (String.ofList literal)

def readNumber (text : List Char) : Option (Json × List Char) := do
  let (sign, rest) := match text with
    | '-' :: rest => (['-'], rest)
    | rest => ([], rest)
  let (whole, rest) ← readWhole rest
  let (fraction, rest) ← readFraction rest
  let (exponent, rest) ← readExponent rest
  return (ofLiteral (sign ++ whole ++ fraction ++ exponent), rest)

/-- A value that may start with blanks.  The budget bounds how deeply values and their elements follow one
another; a text needs no more than its length. -/
def readValue : Nat → List Char → Option (Json × List Char)
  | 0, _ => none
  | budget + 1, text =>
      match skipBlanks text with
      | 'n' :: 'u' :: 'l' :: 'l' :: rest => some (null, rest)
      | 't' :: 'r' :: 'u' :: 'e' :: rest => some (bool true, rest)
      | 'f' :: 'a' :: 'l' :: 's' :: 'e' :: rest => some (bool false, rest)
      | '"' :: rest => (readString rest).map fun (chars, rest) => (string (String.ofList chars), rest)
      | '[' :: rest =>
          match skipBlanks rest with
          | ']' :: rest => some (array [], rest)
          | rest => (readElements budget rest).map fun (values, rest) => (array values, rest)
      | '\x7b' :: rest =>
          match skipBlanks rest with
          | '\x7d' :: rest => some (object [], rest)
          | rest => (readMembers budget rest).map fun (members, rest) =>
              (object (SortedMap.ofList members).entries, rest)
      | rest => readNumber rest
where
  /-- The elements of an array up to its closing bracket. -/
  readElements : Nat → List Char → Option (List Json × List Char)
    | 0, _ => none
    | budget + 1, text => do
        let (value, rest) ← readValue budget text
        match skipBlanks rest with
        | ',' :: rest => (readElements budget rest).map fun (values, rest) => (value :: values, rest)
        | ']' :: rest => some ([value], rest)
        | _ => none
  /-- The members of an object up to its closing brace. -/
  readMembers : Nat → List Char → Option (List (String × Json) × List Char)
    | 0, _ => none
    | budget + 1, text => do
        match skipBlanks text with
        | '"' :: rest =>
            let (chars, rest) ← readString rest
            match skipBlanks rest with
            | ':' :: rest =>
                let (value, rest) ← readValue budget rest
                let member := (String.ofList chars, value)
                match skipBlanks rest with
                | ',' :: rest =>
                    (readMembers budget rest).map fun (members, rest) => (member :: members, rest)
                | '\x7d' :: rest => some ([member], rest)
                | _ => none
            | _ => none
        | _ => none

/-- The value that a text holds. -/
def read? (text : String) : Option Json := do
  let chars := text.toList
  let (value, rest) ← readValue (2 * chars.length + 1) chars
  if skipBlanks rest = [] then some value else none

end ApiDocs.Json
