/-!
# Cutting texts

A text is cut into fields at a separator and into lines at line feeds.
-/

namespace ApiDocs.Text

/-- The pieces of a text between the occurrences of a separator. -/
def fields (separator : Char) (text : String) : List String :=
  (text.toList.splitOn separator).map String.ofList

/-- The text before the first occurrence of a separator and the text after it. -/
def cutAt? (separator : Char) : List Char → Option (List Char × List Char)
  | [] => none
  | char :: rest =>
      if char = separator then some ([], rest)
      else (cutAt? separator rest).map fun (before, after) => (char :: before, after)

/-- A cut loses the separator and nothing else. -/
theorem eq_of_cutAt? {separator : Char} {text before after : List Char}
    (cut : cutAt? separator text = some (before, after)) :
    text = before ++ separator :: after := by
  induction text generalizing before with
  | nil => simp [cutAt?] at cut
  | cons char rest ih =>
      simp only [cutAt?] at cut
      split at cut
      next same =>
        obtain ⟨rfl, rfl⟩ := Prod.mk.inj (Option.some.inj cut)
        simp [same]
      next =>
        obtain ⟨⟨inner, behind⟩, found, equal⟩ := Option.map_eq_some_iff.mp cut
        obtain ⟨rfl, rfl⟩ := Prod.mk.inj equal
        simp [ih found]

/-- The first separator is where the text is cut. -/
theorem cutAt?_append {separator : Char} {before : List Char} (absent : separator ∉ before) (after : List Char) :
    cutAt? separator (before ++ separator :: after) = some (before, after) := by
  induction before with
  | nil => exact if_pos rfl
  | cons first rest ih =>
      obtain ⟨differs, absentLater⟩ := not_or.mp (mt List.mem_cons.mpr absent)
      rw [List.cons_append, cutAt?, if_neg (Ne.symm differs), ih absentLater]
      rfl

/-- A line that a line feed ends does not keep a carriage return right before it. -/
def dropReturn (line : List Char) : List Char :=
  if line.getLast? = some '\r' then line.dropLast else line

/--
The lines of a text.  A line feed ends a line, with or without a carriage return before it; what follows
the last line feed is a line unless it is empty.
-/
def lines (text : List Char) : List (List Char) :=
  let pieces := text.splitOn '\n'
  pieces.dropLast.map dropReturn ++ pieces.getLast?.toList.filter (· ≠ [])

/-- The text without the given beginning, if it begins so. -/
def withoutHead? (head text : List Char) : Option (List Char) :=
  if head.isPrefixOf text then some (text.drop head.length) else none

/-- The text without the given ending, if it ends so. -/
def withoutTail? (tail text : List Char) : Option (List Char) :=
  if tail.isSuffixOf text then some (text.take (text.length - tail.length)) else none

end ApiDocs.Text
