import ApiDocs.Text.Lines

/-!
# Fields and lines of texts

The fields of a text, joined by the separator they were cut at, are the text.  The lines of a text are cut off one by
one at its line feeds.
-/

namespace ApiDocs.Text

variable {separator : Char} {text : String}

/-- No piece of a text holds the separator. -/
theorem not_mem_of_mem_splitOn {separator : Char} {text piece : List Char}
    (listed : piece ∈ text.splitOn separator) : separator ∉ piece := by
  induction text generalizing piece with
  | nil =>
      obtain rfl := List.mem_singleton.mp listed
      exact List.not_mem_nil
  | cons first rest ih =>
      rw [List.splitOn_cons_eq_if_modifyHead] at listed
      by_cases same : first = separator
      · rw [if_pos (beq_iff_eq.mpr same)] at listed
        obtain rfl | later := List.mem_cons.mp listed
        · exact List.not_mem_nil
        · exact ih later
      · rw [if_neg (mt beq_iff_eq.mp same)] at listed
        cases pieces : rest.splitOn separator with
        | nil => exact absurd pieces (List.splitOn_ne_nil _ _)
        | cons head others =>
            rw [pieces] at ih listed
            obtain rfl | later := List.mem_cons.mp listed
            · exact List.not_mem_cons_of_ne_of_not_mem (Ne.symm same) (ih List.mem_cons_self)
            · exact ih (List.mem_cons_of_mem _ later)

theorem fields_ne_nil (separator : Char) (text : String) : fields separator text ≠ [] :=
  mt List.map_eq_nil_iff.mp (List.splitOn_ne_nil _ _)

/-- A joined text is what its fields were cut from. -/
theorem intercalate_fields (separator : Char) (text : String) :
    String.intercalate (String.singleton separator) (fields separator text) = text := by
  apply String.toList_injective
  rw [String.toList_intercalate, fields, List.map_map, String.toList_singleton]
  have same : String.toList ∘ String.ofList = id := funext fun _ => String.toList_ofList
  rw [same, List.map_id, List.intercalate_splitOn]

/-- A text ends in its last field. -/
theorem exists_last_field (separator : Char) (text : String) :
    ∃ front last, fields separator text = front ++ [last] ∧
      (text = last ∨ ∃ before, text = before ++ String.singleton separator ++ last) := by
  have joined := intercalate_fields separator text
  obtain none | ⟨front, last, cut⟩ := List.eq_nil_or_concat (fields separator text)
  · exact absurd none (fields_ne_nil separator text)
  · rw [List.concat_eq_append] at cut
    refine ⟨front, last, cut, ?_⟩
    rw [cut] at joined
    cases front with
    | nil =>
        rw [List.nil_append, String.intercalate_singleton] at joined
        exact .inl joined.symm
    | cons first rest =>
        rw [String.intercalate_append_of_ne_nil (List.cons_ne_nil _ _) (List.cons_ne_nil _ _),
          String.intercalate_singleton] at joined
        exact .inr ⟨_, joined.symm⟩

/-- Texts with the same fields are the same. -/
theorem fields_injective (separator : Char) : Function.Injective (fields separator) := by
  intro first second same
  rw [← intercalate_fields separator first, same, intercalate_fields]

theorem fields_of_notMem (absent : separator ∉ text.toList) : fields separator text = [text] := by
  rw [fields, List.splitOn_eq_singleton absent, List.map_singleton, String.ofList_toList]

theorem fields_append (separator : Char) (first second : String) :
    fields separator (first ++ String.singleton separator ++ second) =
      fields separator first ++ fields separator second := by
  have regrouped : (first ++ String.singleton separator ++ second).toList =
      first.toList ++ separator :: second.toList := by
    simp [String.toList_append]
  rw [fields, regrouped, List.splitOn_append_cons_self, List.map_append, fields, fields]

/-- Texts without the separator are the fields of what they are joined to. -/
theorem fields_intercalate {pieces : List String} (apart : ∀ piece ∈ pieces, separator ∉ piece.toList)
    (nonempty : pieces ≠ []) :
    fields separator (String.intercalate (String.singleton separator) pieces) = pieces := by
  induction pieces with
  | nil => exact absurd rfl nonempty
  | cons first rest ih =>
      obtain ⟨absent, apartLater⟩ := List.forall_mem_cons.mp apart
      cases rest with
      | nil => rw [String.intercalate_singleton, fields_of_notMem absent]
      | cons second others =>
          rw [String.intercalate_cons_of_ne_nil (List.cons_ne_nil _ _), fields_append, fields_of_notMem absent,
            ih apartLater (List.cons_ne_nil _ _), List.singleton_append]

/-- A joined text is made of the pieces and the separator. -/
theorem mem_of_mem_intercalate {separator : List Char} {pieces : List (List Char)} {char : Char}
    (listed : char ∈ separator.intercalate pieces) : char ∈ separator ∨ ∃ piece ∈ pieces, char ∈ piece := by
  induction pieces with
  | nil => exact nomatch listed
  | cons first rest ih =>
      cases rest with
      | nil =>
          rw [List.intercalate_singleton] at listed
          exact .inr ⟨first, List.mem_cons_self, listed⟩
      | cons second others =>
          rw [List.intercalate_cons_cons, List.append_assoc, List.mem_append, List.mem_append] at listed
          rcases listed with inFirst | inSeparator | later
          · exact .inr ⟨first, List.mem_cons_self, inFirst⟩
          · exact .inl inSeparator
          · rcases ih later with inSeparator | ⟨piece, among, inPiece⟩
            · exact .inl inSeparator
            · exact .inr ⟨piece, List.mem_cons_of_mem first among, inPiece⟩

theorem isInfix_intercalate {separator piece : List Char} {pieces : List (List Char)} (listed : piece ∈ pieces) :
    piece <:+: separator.intercalate pieces := by
  induction pieces with
  | nil => exact nomatch listed
  | cons first rest ih =>
      cases rest with
      | nil =>
          have whole : separator.intercalate [first] = piece := by
            rw [List.intercalate_singleton, List.mem_singleton.mp listed]
          exact ⟨[], [], by rw [whole, List.nil_append, List.append_nil]⟩
      | cons second others =>
          rw [List.intercalate_cons_cons, List.append_assoc]
          rcases List.mem_cons.mp listed with rfl | later
          · exact (List.prefix_append _ _).isInfix
          · exact (ih later).trans ((List.suffix_append _ _).trans (List.suffix_append _ _)).isInfix

theorem isInfix_of_mem_splitOn {separator : Char} {text piece : List Char} (listed : piece ∈ text.splitOn separator) :
    piece <:+: text := by
  have inside : piece <:+: [separator].intercalate (text.splitOn separator) := isInfix_intercalate listed
  rwa [List.intercalate_splitOn] at inside

/-! ### Lines -/

theorem dropReturn_eq_self {line : List Char} (noReturn : line.getLast? ≠ some '\r') : dropReturn line = line :=
  if_neg noReturn

theorem isPrefix_dropReturn (line : List Char) : dropReturn line <+: line := by
  unfold dropReturn
  split
  · exact List.dropLast_prefix line
  · exact List.prefix_rfl

/-- A line feed ends the first line. -/
theorem lines_append_newLine {line : List Char} (absent : '\n' ∉ line) (rest : List Char) :
    lines (line ++ '\n' :: rest) = dropReturn line :: lines rest := by
  have cut : (line ++ '\n' :: rest).splitOn '\n' = line :: rest.splitOn '\n' :=
    List.splitOn_append_cons_self_of_not_mem absent rest
  have several : rest.splitOn '\n' ≠ [] := List.splitOn_ne_nil _ _
  rw [lines, cut, List.dropLast_cons_of_ne_nil several, List.getLast?_cons_of_ne_nil several]
  rfl

/-- Behind the last line feed stands a line unless nothing does. -/
theorem lines_of_not_mem {text : List Char} (absent : '\n' ∉ text) : lines text = if text = [] then [] else [text] := by
  rw [lines, List.splitOn_eq_singleton absent]
  by_cases empty : text = [] <;> simp [empty]

/-- A line is a part of the text, and no line feed stands in it. -/
theorem isInfix_of_mem_lines {text line : List Char} (listed : line ∈ lines text) : line <:+: text ∧ '\n' ∉ line := by
  have begins : ∃ piece ∈ text.splitOn '\n', line <+: piece := by
    rcases List.mem_append.mp listed with ended | last
    · obtain ⟨piece, found, rfl⟩ := List.mem_map.mp ended
      exact ⟨piece, List.dropLast_subset _ found, isPrefix_dropReturn piece⟩
    · have found := Option.mem_toList.mp (List.mem_filter.mp last).1
      exact ⟨line, List.mem_of_mem_getLast? found, List.prefix_rfl⟩
  obtain ⟨piece, found, begins⟩ := begins
  exact ⟨begins.isInfix.trans (isInfix_of_mem_splitOn found),
    fun feeds => not_mem_of_mem_splitOn found (begins.subset feeds)⟩

/-! ### Beginnings and endings -/

theorem isSuffix_withoutHead? (head text : List Char) : (withoutHead? head text).getD text <:+ text := by
  unfold withoutHead?
  split
  · exact List.drop_suffix _ _
  · exact List.suffix_rfl

theorem isPrefix_withoutTail? (tail text : List Char) : (withoutTail? tail text).getD text <+: text := by
  unfold withoutTail?
  split
  · exact List.take_prefix _ _
  · exact List.prefix_rfl

theorem withoutHead?_eq_some_iff {head text rest : List Char} :
    withoutHead? head text = some rest ↔ text = head ++ rest := by
  unfold withoutHead?
  constructor
  · intro found
    split at found
    next begins =>
      obtain ⟨behind, rfl⟩ := List.isPrefixOf_iff_prefix.mp begins
      rw [List.drop_left] at found
      rw [Option.some.inj found]
    next => cases found
  · rintro rfl
    rw [if_pos (List.isPrefixOf_iff_prefix.mpr (List.prefix_append head rest)), List.drop_left]

theorem withoutTail?_append (text tail : List Char) : withoutTail? tail (text ++ tail) = some text := by
  rw [withoutTail?, if_pos (List.isSuffixOf_iff_suffix.mpr (List.suffix_append text tail)), List.length_append,
    Nat.add_sub_cancel, List.take_left]

end ApiDocs.Text
