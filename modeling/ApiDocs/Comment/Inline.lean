import ApiDocs.Comment
import ApiDocs.Text.Blank
import ApiDocs.Text.Word

/-!
# Inline markup

A text is cut into plain pieces and inline tags: a tag opens with a brace, an at sign and a word, and ends
at the brace that balances the opening one.  The fragments of the text are the images of its pieces, with
neighbouring texts joined.
-/

namespace ApiDocs.Comment

/-- A piece of a text; a tag keeps what stands between its name and its closing brace. -/
inductive Piece where
  | plain (text : List Char)
  | tag (name inside : List Char)

/-- The text up to the brace that closes an open one, and the text behind it; the first argument counts
the braces opened inside. -/
def splitClosing? : Nat → List Char → Option (List Char × List Char)
  | _, [] => none
  | nested, '\x7b' :: rest =>
      (splitClosing? (nested + 1) rest).map fun (inside, after) => ('\x7b' :: inside, after)
  | 0, '\x7d' :: rest => some ([], rest)
  | nested + 1, '\x7d' :: rest =>
      (splitClosing? nested rest).map fun (inside, after) => ('\x7d' :: inside, after)
  | nested, char :: rest =>
      (splitClosing? nested rest).map fun (inside, after) => (char :: inside, after)

/-- Nothing is lost but the closing brace. -/
theorem eq_of_splitClosing? {nested : Nat} {text inside after : List Char}
    (split : splitClosing? nested text = some (inside, after)) :
    text = inside ++ '\x7d' :: after := by
  fun_induction splitClosing? nested text generalizing inside after with
  | case1 => simp at split
  | case2 nested rest ih =>
      obtain ⟨⟨inner, behind⟩, found, same⟩ := Option.map_eq_some_iff.mp split
      obtain ⟨rfl, rfl⟩ := Prod.mk.inj same
      simp [ih found]
  | case3 rest =>
      obtain ⟨rfl, rfl⟩ := Prod.mk.inj (Option.some.inj split)
      rfl
  | case4 rest nested ih =>
      obtain ⟨⟨inner, behind⟩, found, same⟩ := Option.map_eq_some_iff.mp split
      obtain ⟨rfl, rfl⟩ := Prod.mk.inj same
      simp [ih found]
  | case5 nested char rest _ _ _ ih =>
      obtain ⟨⟨inner, behind⟩, found, same⟩ := Option.map_eq_some_iff.mp split
      obtain ⟨rfl, rfl⟩ := Prod.mk.inj same
      simp [ih found]

theorem length_of_splitClosing? {nested : Nat} {text inside after : List Char}
    (split : splitClosing? nested text = some (inside, after)) : after.length < text.length := by
  have lengths := congrArg List.length (eq_of_splitClosing? split)
  simp only [List.length_append, List.length_cons] at lengths
  omega

/-- Put plain text in front of pieces; it becomes part of a plain first piece. -/
def prependPlain (text : List Char) : List Piece → List Piece
  | .plain later :: rest => .plain (text ++ later) :: rest
  | pieces => .plain text :: pieces

/--
The pieces of a text.  An opening that no brace balances ends the search for tags, and one that no word
follows is plain.
-/
def pieces : List Char → List Piece
  | [] => []
  | '\x7b' :: '@' :: rest =>
      match split : splitClosing? 0 rest with
      | none => [.plain ('\x7b' :: '@' :: rest)]
      | some (inside, after) =>
          have _shorter := length_of_splitClosing? split
          let (name, content) := Text.spanWord inside
          if name = [] then prependPlain ['\x7b', '@'] (pieces rest)
          else .tag name content :: pieces after
  | char :: rest => prependPlain [char] (pieces rest)
termination_by text => text.length
decreasing_by
  all_goals simp only [List.length_cons]; omega

/-- The first word of a text, blanks before it left out, and what follows it. -/
def splitName (text : List Char) : List Char × List Char :=
  let body := Text.trimStart text
  (body.takeWhile fun char => !Text.isBlank char, body.dropWhile fun char => !Text.isBlank char)

/-- Put a text in front of fragments; it becomes part of a first fragment that is text. -/
def prependText (text : List Char) (fragments : List Fragment) : List Fragment :=
  if text = [] then fragments
  else match fragments with
    | .text later :: rest => .text (String.ofList text ++ later) :: rest
    | _ => .text (String.ofList text) :: fragments

/-- Put the image of an inline tag in front of fragments. -/
def prependTag (name content : List Char) (fragments : List Fragment) : List Fragment :=
  match String.ofList name with
  | "link" | "linkplain" =>
      let (target, rest) := splitName content
      let label := Text.trim rest
      .link (String.ofList target) (if label = [] then none else some (String.ofList label)) :: fragments
  | "code" | "literal" => .code (String.ofList content) :: fragments
  | _ => prependText content fragments

/-- The images of pieces. -/
def fragments : List Piece → List Fragment
  | [] => []
  | .plain text :: rest => prependText text (fragments rest)
  | .tag name inside :: rest => prependTag name (Text.trim inside) (fragments rest)

end ApiDocs.Comment

namespace ApiDocs.DocText

/-- Resolve the inline markup of a text. -/
def parse (text : List Char) : DocText :=
  ⟨Comment.fragments (Comment.pieces (Text.trim text))⟩

end ApiDocs.DocText
