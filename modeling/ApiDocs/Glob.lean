import ApiDocs.Text.Lines

/-!
# Globs

A glob describes paths.  `?` and `*` stand for one byte and for any bytes of a name, `**` for any number of
names, brackets for a class of characters, and braces for one of several globs.  Paths are compared with a
glob byte by byte.
-/

namespace ApiDocs

inductive GlobToken where
  | literal (char : Char)
  /-- One byte other than a slash. -/
  | anyByte
  /-- Any bytes other than slashes. -/
  | anyName
  /-- Any number of names at the start, with the slash behind them. -/
  | leadingNames
  /-- A slash and any names behind it. -/
  | trailingNames
  /-- A slash, or any names between two slashes. -/
  | innerNames
  /-- A byte of a class, given by the first and last characters of its ranges. -/
  | oneOf (negated : Bool) (ranges : List (Char × Char))
  | alternatives (branches : List (List GlobToken))

abbrev Glob := List GlobToken

namespace Glob

def slash : UInt8 :=
  '/'.toUInt8

def bytesOf (text : String) : List UInt8 :=
  text.toList.flatMap String.utf8EncodeChar

/-- What is left of a text behind bytes other than slashes. -/
def afterName : List UInt8 → List (List UInt8)
  | [] => [[]]
  | byte :: rest => (byte :: rest) :: (if byte = slash then [] else afterName rest)

/-- What is left of a text behind each of its slashes. -/
def afterSlash : List UInt8 → List (List UInt8)
  | [] => []
  | byte :: rest => if byte = slash then rest :: afterSlash rest else afterSlash rest

/-- What is left of a text behind any bytes. -/
def suffixes : List UInt8 → List (List UInt8)
  | [] => [[]]
  | byte :: rest => (byte :: rest) :: suffixes rest

/-- The ranges of bytes of a range of characters.  Beyond ASCII the range runs from the last byte of the
lower character to the first byte of the upper one, and the other bytes stand for themselves. -/
def byteRanges (lower upper : Char) : List (UInt8 × UInt8) :=
  let single (byte : UInt8) := (byte, byte)
  let first := String.utf8EncodeChar lower
  let last := String.utf8EncodeChar upper
  if lower = upper then first.map single
  else first.dropLast.map single ++ (first.getLast?.toList.zip last.head?.toList) ++ last.tail.map single

/-- Whether a byte is in a class. -/
def inClass (ranges : List (Char × Char)) (byte : UInt8) : Bool :=
  ranges.any fun (lower, upper) =>
    (byteRanges lower upper).any fun (first, last) => first ≤ byte && byte ≤ last

mutual

/-- Whether a token stands for the empty text alone: a group all of whose branches are empty does. -/
def isVoid : GlobToken → Bool
  | .alternatives branches => allVoid branches
  | _ => false

/-- Whether a glob stands for the empty text alone. -/
def isEmptyGlob : List GlobToken → Bool
  | [] => true
  | first :: rest => isVoid first && isEmptyGlob rest

def allVoid : List (List GlobToken) → Bool
  | [] => true
  | first :: rest => isEmptyGlob first && allVoid rest

end

mutual

/-- What is left of a text behind a token, in every way in which it can be read. -/
def restsOf : GlobToken → List UInt8 → List (List UInt8)
  | .literal char, text =>
      let bytes := String.utf8EncodeChar char
      if bytes.isPrefixOf text then [text.drop bytes.length] else []
  | .anyByte, byte :: rest => if byte = slash then [] else [rest]
  | .anyByte, [] => []
  | .anyName, text => afterName text
  | .leadingNames, text => text :: afterSlash text
  | .trailingNames, byte :: rest => if byte = slash then suffixes rest else []
  | .trailingNames, [] => []
  | .innerNames, byte :: rest => if byte = slash then rest :: afterSlash rest else []
  | .innerNames, [] => []
  | .oneOf negated ranges, byte :: rest => if inClass ranges byte == negated then [] else [rest]
  | .oneOf _ _, [] => []
  | .alternatives branches, text => if allVoid branches then [text] else choicesOf branches text

/-- What is left of a text behind any of several globs, of which the empty ones do not count. -/
def choicesOf : List (List GlobToken) → List UInt8 → List (List UInt8)
  | [], _ => []
  | first :: others, text =>
      (if isEmptyGlob first then [] else sequenceOf first [text]) ++ choicesOf others text

/-- What is left of several texts behind a glob. -/
def sequenceOf : List GlobToken → List (List UInt8) → List (List UInt8)
  | [], texts => texts
  | first :: rest, texts => sequenceOf rest (texts.flatMap (restsOf first)).eraseDups

end

/-- Whether a glob describes a path.  Two stars alone describe every path. -/
def accepts (glob : Glob) (path : String) : Bool :=
  match glob with
  | [.leadingNames] => true
  | tokens => (sequenceOf tokens [bytesOf path]).any List.isEmpty

end Glob

end ApiDocs
