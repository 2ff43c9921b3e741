import ApiDocs.Json.Record
import ApiDocs.SyntaxTree

/-!
# Syntax trees in JSON

A tree is the list of its nodes in preorder.  A node is a list of its kind, its role, its flags, the bytes
of the source at which its text starts and ends, and the number of its children.
-/

namespace ApiDocs.SyntaxNode

/-- The text between two byte positions of a source. -/
def slice (source : String) (first last : Nat) : String :=
  String.Pos.Raw.extract source ⟨first⟩ ⟨last⟩

/-- A node without its children, and their number. -/
def rowOfJson? (source : String) : Json → Option (SyntaxNode × Nat)
  | .array [.string kind, .string field, .natural flags, .natural first, .natural last, .natural count] =>
      let node : SyntaxNode :=
        { kind, field
          isNamed := flags % 2 = 1
          isExtra := flags / 2 % 2 = 1
          text := slice source first last
          children := [] }
      some (node, count)
  | _ => none

/-- The tree of a source. -/
def ofJson? (source : String) (json : Json) : Option SyntaxNode := do
  match ofPreorder (← json.list? (rowOfJson? source)) with
  | [root] => some root
  | _ => none

end ApiDocs.SyntaxNode
