import ApiDocs.Comment.Inline
import ApiDocs.Text.Lines

/-!
# Comments

A comment is freed of its delimiters and of the gutter of stars at its left.  A line that starts with an
at sign and a word opens a block tag, which reaches up to the next such line; the lines before the first
one are the description.
-/

namespace ApiDocs.Comment

/-- A line without its indentation, one star, one space behind the star, and trailing blanks. -/
def stripGutterLine (line : List Char) : List Char :=
  let unindented := Text.trimStart line
  let unstarred := (Text.withoutHead? ['*'] unindented).getD unindented
  Text.trimEnd ((Text.withoutHead? [' '] unstarred).getD unstarred)

/-- The lines of a comment without its delimiters and its gutter. -/
def stripGutter (comment : List Char) : List (List Char) :=
  let trimmed := Text.trim comment
  let opened := (Text.withoutHead? ['/', '*', '*'] trimmed).getD trimmed
  let body := (Text.withoutTail? ['*', '/'] opened).getD opened
  (Text.lines body).map stripGutterLine

/-- A block tag: its word and the lines of its body. -/
structure Block where
  word : List Char
  body : List (List Char)

/-- The word of the block tag that a line opens, and what follows the blanks behind it. -/
def opening? : List Char → Option (List Char × List Char)
  | '@' :: text =>
      let (word, rest) := Text.spanWord text
      if word = [] then none
      else match rest with
        | [] => some (word, [])
        | char :: _ => if Text.isBlank char then some (word, Text.trimStart rest) else none
  | _ => none

/-- Cut lines before each one that opens a block tag: the lines before the first cut, and the blocks. -/
def cutBlocks : List (List Char) → List (List Char) × List Block
  | [] => ([], [])
  | line :: rest =>
      let (before, blocks) := cutBlocks rest
      match opening? line with
      | some (word, first) => ([], ⟨word, first :: before.map Text.trim⟩ :: blocks)
      | none => (line :: before, blocks)

/-- Lines with a line feed between each two. -/
def joinLines (lines : List (List Char)) : List Char :=
  ['\n'].intercalate lines

namespace Block

/-- The tag of a block.  A tag about a name takes the first word of its body for it. -/
def tag (block : Block) : Tag :=
  let body := joinLines block.body
  let (name, rest) := splitName body
  match String.ofList block.word with
  | "param" => .param (String.ofList name) (.parse rest)
  | "return" => .returns (.parse body)
  | "throws" | "exception" => .throws (String.ofList name) (.parse rest)
  | "see" => .see (String.ofList (Text.trim body)) (.parse body)
  | "author" => .author (.parse body)
  | "since" => .since (.parse body)
  | "deprecated" => .deprecated (.parse body)
  | other => .custom other (.parse body)

end Block

end ApiDocs.Comment

namespace ApiDocs.Documentation

/-- The documentation in a comment: its description, unless that is empty, and its block tags. -/
def ofComment (comment : String) : Documentation :=
  let (lines, blocks) := Comment.cutBlocks (Comment.stripGutter comment.toList)
  let root := DocText.parse (Comment.joinLines lines)
  let description := if root.fragments.isEmpty then [] else [Tag.description root]
  ⟨description ++ blocks.map Comment.Block.tag⟩

/-- The documentation in a comment that may be missing. -/
def ofComment? : Option String → Documentation
  | some comment => ofComment comment
  | none => ⟨[]⟩

end ApiDocs.Documentation
