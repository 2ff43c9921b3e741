/-!
# Lists without repetitions

Items are put behind a list unless they are in it already, so that each stands where it was first seen.
-/

namespace ApiDocs

/-- Put those items behind the held ones that are not among them yet. -/
def extendDistinct {α : Type} [DecidableEq α] (held others : List α) : List α :=
  others.foldl (fun held other => if other ∈ held then held else held ++ [other]) held

/-- The items of a list, each once and in the order of their first occurrences. -/
def distinct {α : Type} [DecidableEq α] (items : List α) : List α :=
  extendDistinct [] items

end ApiDocs
