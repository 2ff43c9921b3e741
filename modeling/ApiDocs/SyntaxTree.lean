/-!
# Concrete syntax trees

A concrete syntax tree keeps every token of a source text, comments and punctuation included.  A tree can
be written flat: its nodes in preorder, each with the number of its children.
-/

namespace ApiDocs

structure SyntaxNode where
  kind : String
  /-- The role of the node in its parent, empty if it has none. -/
  field : String
  /-- Whether the grammar names the kind; keywords and punctuation are not named. -/
  isNamed : Bool
  /-- Whether the node may stand anywhere, as comments may. -/
  isExtra : Bool
  /-- The part of the source that the node covers. -/
  text : String
  children : List SyntaxNode

namespace SyntaxNode

def namedChildren (node : SyntaxNode) : List SyntaxNode :=
  node.children.filter isNamed

/-- The first child in a role. -/
def child? (node : SyntaxNode) (field : String) : Option SyntaxNode :=
  node.children.find? fun child => child.field == field

/-- Every child in a role. -/
def childrenIn (node : SyntaxNode) (field : String) : List SyntaxNode :=
  node.children.filter fun child => child.field == field

/-- A node gets the first of the trees that follow it as its children. -/
def collect (childless : SyntaxNode) (count : Nat) (following : List SyntaxNode) : List SyntaxNode :=
  { childless with children := following.take count } :: following.drop count

/-- The trees whose nodes are listed in preorder, each with the number of its children. -/
def ofPreorder (nodes : List (SyntaxNode × Nat)) : List SyntaxNode :=
  nodes.foldr (fun (childless, count) following => collect childless count following) []

end SyntaxNode

end ApiDocs
