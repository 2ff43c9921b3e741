/-!
# Ranges of characters

A class of characters is a list of ranges of code points in ascending order.
-/

namespace ApiDocs.Text

/-- The first and the last code point of a run of characters. -/
abbrev CharRange := Nat × Nat

/-- Whether a code point lies in one of the ranges, which ascend: the search ends at the first range
that begins above it. -/
def inRanges (code : Nat) : List CharRange → Bool
  | [] => false
  | (first, last) :: rest => first ≤ code && (code ≤ last || inRanges code rest)

end ApiDocs.Text
