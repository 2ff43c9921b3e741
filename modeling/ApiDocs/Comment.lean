/-!
# Documentation of a declaration

The documentation in a comment is a sequence of tags: a description and block tags such as `@param`.  The
text of a tag is made of fragments, in which inline markup has become code and links.
-/

namespace ApiDocs

/-- A part of a documentation text. -/
inductive Fragment where
  | text (text : String)
  | code (code : String)
  /-- A link to a declaration, shown by its label if it has one. -/
  | link (target : String) (label : Option String)
deriving DecidableEq

structure DocText where
  fragments : List Fragment
deriving DecidableEq

/-- A tag of a comment with its text; some tags also name what they are about. -/
inductive Tag where
  | description (root : DocText)
  | param (name : String) (root : DocText)
  | returns (root : DocText)
  | throws (name : String) (root : DocText)
  | see (name : String) (root : DocText)
  | author (root : DocText)
  | since (root : DocText)
  | deprecated (root : DocText)
  | custom (name : String) (root : DocText)
deriving DecidableEq

structure Documentation where
  tags : List Tag
deriving DecidableEq

namespace Fragment

/-- A fragment in Markdown: code and links without a label stand between backquotes. -/
def display : Fragment → String
  | .text content => content
  | .code content => "`" ++ content ++ "`"
  | .link target (some label) => "[" ++ label ++ "](" ++ target ++ ")"
  | .link target none => "`" ++ target ++ "`"

end Fragment

namespace DocText

def display (text : DocText) : String :=
  String.join (text.fragments.map Fragment.display)

end DocText

namespace Tag

def root : Tag → DocText
  | description root | param _ root | returns root | throws _ root | see _ root | author root
  | since root | deprecated root | custom _ root => root

end Tag

namespace Documentation

/-- The text of the first description. -/
def description? (documentation : Documentation) : Option DocText :=
  documentation.tags.findSome? fun
    | .description root => some root
    | _ => none

/-- The text of the first `@param` tag for a name. -/
def param? (documentation : Documentation) (name : String) : Option DocText :=
  documentation.tags.findSome? fun
    | .param other root => if other = name then some root else none
    | _ => none

end Documentation

end ApiDocs
