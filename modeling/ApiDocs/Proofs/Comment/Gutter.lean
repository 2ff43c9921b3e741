import ApiDocs.Proofs.Comment.Block
import ApiDocs.Proofs.Fields

/-!
# The gutter of a comment

Lines of documentation are decorated with a gutter of stars, and each line has an indentation of its own.  Freeing
the comment of its gutter gives the lines back, so that the documentation does not depend on the indentation.
-/

namespace ApiDocs.Comment

/-- White space in front of a line. -/
structure Indentation where
  text : List Char
  blank : ∀ char ∈ text, Text.isBlank char = true
  oneLine : '\n' ∉ text

/-- A line of documentation, which does not end with white space. -/
structure DocLine where
  text : List Char
  oneLine : '\n' ∉ text
  ends : ∀ char ∈ text.getLast?, Text.isBlank char = false

/-- A line of a comment: behind its indentation stand a star, a space and a line of documentation. -/
structure Row where
  indentation : Indentation
  line : DocLine

namespace Row

def source (row : Row) : List Char :=
  row.indentation.text ++ '*' :: ' ' :: row.line.text

variable (row : Row)

theorem oneLine : '\n' ∉ row.source := by
  have noFeed : '\n' ∉ '*' :: ' ' :: row.line.text :=
    List.not_mem_cons_of_ne_of_not_mem (by decide) (List.not_mem_cons_of_ne_of_not_mem (by decide) row.line.oneLine)
  exact fun listed => (List.mem_append.mp listed).elim row.indentation.oneLine noFeed

/-- A row does not end with a carriage return, since it ends with its line of documentation or with a space. -/
theorem getLast?_source : row.source.getLast? ≠ some '\r' := by
  obtain empty | ⟨front, last, text⟩ := List.eq_nil_or_concat row.line.text
  · rw [source, empty, List.getLast?_append]
    exact nofun
  · have dark := row.line.ends last (by rw [text, List.concat_eq_append, List.getLast?_concat]; rfl)
    have split : row.source = row.indentation.text ++ '*' :: ' ' :: front ++ [last] := by
      rw [source, text, List.concat_eq_append, List.append_assoc, List.cons_append, List.cons_append]
    rw [split, List.getLast?_concat]
    rintro ⟨⟩
    cases dark

theorem stripGutterLine_source : stripGutterLine row.source = row.line.text := by
  have unindented : Text.trimStart row.source = '*' :: ' ' :: row.line.text := by
    rw [source, Text.trimStart_append_of_blank row.indentation.blank]
    exact Text.trimStart_eq_self (by rintro _ ⟨⟩; decide)
  rw [stripGutterLine, unindented]
  exact Text.trimEnd_eq_self row.line.ends

end Row

/-- The text of a comment: its opening on a line of its own, its rows, and behind an indentation its end. -/
def decorate (rows : List Row) (last : Indentation) : List Char :=
  '/' :: '*' :: '*' :: '\n' :: (rows.flatMap (fun row => row.source ++ ['\n']) ++ last.text) ++ ['*', '/']

theorem lines_rows (rows : List Row) (last : Indentation) :
    Text.lines (rows.flatMap (fun row => row.source ++ ['\n']) ++ last.text) =
      rows.map Row.source ++ Text.lines last.text := by
  induction rows with
  | nil => rfl
  | cons row rest ih =>
      rw [List.flatMap_cons, List.append_assoc, List.append_assoc, List.singleton_append,
        Text.lines_append_newLine row.oneLine, Text.dropReturn_eq_self row.getLast?_source, ih, List.map_cons,
        List.cons_append]

/-- The last line of a decorated comment has nothing before the end of the comment but its indentation. -/
def closingLines (last : Indentation) : List (List Char) :=
  if last.text = [] then [] else [[]]

theorem stripGutterLine_closing (last : Indentation) :
    (Text.lines last.text).map stripGutterLine = closingLines last := by
  rw [Text.lines_of_not_mem last.oneLine, closingLines]
  split
  · rfl
  · have nothing : Text.trimStart last.text = [] := List.dropWhile_eq_nil_iff.mpr last.blank
    rw [List.map_singleton, stripGutterLine, nothing]
    rfl

/-- A decorated comment neither begins nor ends with a blank. -/
theorem trim_decorate (rows : List Row) (last : Indentation) : Text.trim (decorate rows last) = decorate rows last := by
  have begun : Text.trimStart (decorate rows last) = decorate rows last :=
    Text.trimStart_eq_self (by rintro _ ⟨⟩; decide)
  have ends : ∀ char ∈ (decorate rows last).getLast?, Text.isBlank char = false := by
    intro char isLast
    rw [decorate, List.getLast?_append] at isLast
    obtain rfl : '/' = char := Option.some.inj isLast
    decide
  rw [Text.trim, begun, Text.trimEnd_eq_self ends]

/-- The gutter is removed with the indentation of each line, and nothing of the lines is lost. -/
theorem stripGutter_decorate (rows : List Row) (last : Indentation) :
    stripGutter (decorate rows last) = [] :: rows.map (fun row => row.line.text) ++ closingLines last := by
  have opened : Text.withoutHead? ['/', '*', '*'] (decorate rows last) =
      some ('\n' :: (rows.flatMap (fun row => row.source ++ ['\n']) ++ last.text) ++ ['*', '/']) :=
    Text.withoutHead?_eq_some_iff.mpr rfl
  have firstLine (text : List Char) : Text.lines ('\n' :: text) = [] :: Text.lines text :=
    Text.lines_append_newLine List.not_mem_nil text
  rw [stripGutter, trim_decorate, opened, Option.getD_some, Text.withoutTail?_append, Option.getD_some, firstLine,
    lines_rows, List.map_cons, List.map_append, List.map_map, stripGutterLine_closing]
  have stripped : stripGutterLine ∘ Row.source = fun row => row.line.text := funext Row.stripGutterLine_source
  rw [stripped]
  rfl

/-! ### An empty last line -/

theorem joinLines_append {lines more : List (List Char)} (nonempty : lines ≠ []) (some : more ≠ []) :
    joinLines (lines ++ more) = joinLines lines ++ '\n' :: joinLines more := by
  induction lines with
  | nil => exact absurd rfl nonempty
  | cons line rest ih =>
      have first {behind : List (List Char)} (several : behind ≠ []) :
          joinLines (line :: behind) = line ++ '\n' :: joinLines behind := by
        rw [joinLines, List.intercalate_cons_of_ne_nil several, List.append_assoc]
        rfl
      obtain rfl | several := eq_or_ne rest []
      · rw [List.singleton_append, first some, joinLines, joinLines, List.intercalate_singleton]
      · rw [List.cons_append, first (List.append_ne_nil_of_left_ne_nil several more), first several, ih several,
          List.append_assoc, List.cons_append]

theorem splitName_eq_of_isFirstWord {text word remainder : List Char} (first : IsFirstWord text word remainder) :
    splitName text = (word, remainder) := by
  obtain ⟨⟨blanks, rfl, areBlank⟩, isWord, ends, blank⟩ := first
  have body : Text.trimStart (blanks ++ word ++ remainder) = word ++ remainder := by
    rw [List.append_assoc, Text.trimStart_append_of_blank areBlank]
    refine Text.trimStart_eq_self fun char begins => ?_
    cases word with
    | nil =>
        rw [blank rfl] at begins
        cases begins
    | cons head others =>
        obtain rfl : head = char := Option.some.inj begins
        exact isWord head List.mem_cons_self
  have dark : ∀ char ∈ word, (!Text.isBlank char) = true := fun char listed => by rw [isWord char listed]; rfl
  rw [splitName, body, List.takeWhile_append_of_pos dark, List.dropWhile_append_of_pos dark]
  cases remainder with
  | nil => simp
  | cons char others => simp [ends char rfl]

/-- Blanks at the end of a text are no part of its first word. -/
theorem splitName_append_of_blank {trail : List Char} (blank : ∀ char ∈ trail, Text.isBlank char = true)
    (text : List Char) :
    ∃ behind, (∀ char ∈ behind, Text.isBlank char = true) ∧
      splitName (text ++ trail) = ((splitName text).1, (splitName text).2 ++ behind) := by
  obtain ⟨⟨blanks, covers, areBlank⟩, isWord, ends, noWord⟩ := isFirstWord_splitName text
  obtain empty | named := eq_or_ne (splitName text).1 []
  · refine ⟨[], nofun, splitName_eq_of_isFirstWord ⟨⟨text ++ trail, ?_, ?_⟩, isWord, ?_, ?_⟩⟩
    · rw [empty, noWord empty, List.append_nil, List.append_nil, List.append_nil]
    · rw [covers, empty, noWord empty, List.append_nil, List.append_nil]
      exact fun char listed => (List.mem_append.mp listed).elim (areBlank char) (blank char)
    · rw [noWord empty]
      exact nofun
    · rw [noWord empty]
      exact fun _ => rfl
  · refine ⟨trail, blank, splitName_eq_of_isFirstWord ⟨⟨blanks, ?_, areBlank⟩, isWord, ?_, (absurd · named)⟩⟩
    · rw [← List.append_assoc, ← covers]
    · intro char begins
      rw [List.head?_append] at begins
      cases remainder : (splitName text).2 with
      | nil =>
          rw [remainder] at begins
          exact blank char (List.mem_of_mem_head? begins)
      | cons first others =>
          rw [remainder] at begins ends
          exact ends char begins

theorem parse_append_of_blank {trail : List Char} (blank : ∀ char ∈ trail, Text.isBlank char = true)
    (text : List Char) : DocText.parse (text ++ trail) = DocText.parse text := by
  rw [DocText.parse, Text.trim_append_of_blank blank, DocText.parse]

/-- An empty line at the end of its body does not change a tag. -/
theorem tag_concat_nil (word : List Char) {body : List (List Char)} (nonempty : body ≠ []) :
    Block.tag ⟨word, body ++ [[]]⟩ = Block.tag ⟨word, body⟩ := by
  have joined : joinLines (body ++ [[]]) = joinLines body ++ ['\n'] :=
    joinLines_append nonempty (List.cons_ne_nil _ _)
  have feedBlank : ∀ char ∈ ['\n'], Text.isBlank char = true := List.all_eq_true.mp rfl
  obtain ⟨behind, blank, first⟩ := splitName_append_of_blank feedBlank (joinLines body)
  unfold Block.tag
  simp only [joined, first, parse_append_of_blank feedBlank, parse_append_of_blank blank,
    Text.trim_append_of_blank feedBlank]

/-- An empty last line belongs to the last block, or to the description if there is no block. -/
theorem cutBlocks_concat_nil (lines : List (List Char)) :
    ((cutBlocks (lines ++ [[]])).1 = (cutBlocks lines).1 ∨
        (cutBlocks (lines ++ [[]])).1 = (cutBlocks lines).1 ++ [[]]) ∧
      (cutBlocks (lines ++ [[]])).2.map Block.tag = (cutBlocks lines).2.map Block.tag := by
  induction lines with
  | nil => exact ⟨.inr rfl, rfl⟩
  | cons line rest ih =>
      obtain ⟨before, tags⟩ := ih
      rw [List.cons_append]
      cases found : opening? line with
      | none =>
          rw [cutBlocks_cons_of_plain found, cutBlocks_cons_of_plain found]
          exact ⟨before.imp (congrArg (line :: ·)) (congrArg (line :: ·)), tags⟩
      | some opened =>
          rw [cutBlocks_cons_of_opening found, cutBlocks_cons_of_opening found]
          refine ⟨.inl rfl, ?_⟩
          rw [List.map_cons, List.map_cons, tags]
          obtain same | longer := before
          · rw [same]
          · rw [longer, List.map_append]
            exact congrArg (· :: _) (tag_concat_nil opened.1 (List.cons_ne_nil _ _))

end ApiDocs.Comment

namespace ApiDocs.Documentation

open Comment

/-- The documentation in lines that have no gutter. -/
def ofLines (lines : List (List Char)) : Documentation :=
  ⟨descriptionOf (cutBlocks lines).1 ++ (cutBlocks lines).2.map Block.tag⟩

theorem ofComment_eq (comment : String) : ofComment comment = ofLines (stripGutter comment.toList) := by
  rw [ofComment, ofLines]
  simp only [descriptionOf, List.isEmpty_iff]

theorem ofLines_concat_nil (lines : List (List Char)) : ofLines (lines ++ [[]]) = ofLines lines := by
  obtain ⟨before, tags⟩ := cutBlocks_concat_nil lines
  have sameText : DocText.parse (joinLines (cutBlocks (lines ++ [[]])).1) = .parse (joinLines (cutBlocks lines).1) := by
    obtain same | longer := before
    · rw [same]
    · rw [longer]
      obtain none | nonempty := eq_or_ne (cutBlocks lines).1 []
      · rw [none]
        rfl
      · rw [joinLines_append nonempty (List.cons_ne_nil _ _)]
        exact parse_append_of_blank (List.all_eq_true.mp rfl) _
  simp only [ofLines, descriptionOf, sameText, tags]

/-- Removing the gutter of a decorated comment gives the lines back, between the empty lines in which the comment
opens and closes; and the documentation is the same for every indentation of the lines. -/
theorem ofComment_decorate (rows : List Row) (last : Indentation) :
    stripGutter (decorate rows last) = [] :: rows.map (fun row => row.line.text) ++ closingLines last ∧
      ∀ (others : List Row) (otherLast : Indentation),
        others.map (fun row => row.line) = rows.map (fun row => row.line) →
        ofComment (String.ofList (decorate others otherLast)) = ofComment (String.ofList (decorate rows last)) := by
  have ofRows (rows : List Row) (last : Indentation) :
      ofComment (String.ofList (decorate rows last)) = ofLines ([] :: rows.map fun row => row.line.text) := by
    rw [ofComment_eq, String.toList_ofList, stripGutter_decorate, closingLines]
    split
    · rw [List.append_nil]
    · exact ofLines_concat_nil _
  refine ⟨stripGutter_decorate rows last, fun others otherLast sameLines => ?_⟩
  have sameTexts := congrArg (List.map DocLine.text) sameLines
  rw [List.map_map, List.map_map] at sameTexts
  rw [ofRows, ofRows]
  exact congrArg (fun texts => ofLines ([] :: texts)) sameTexts

/-- Lines that look like a tag, an empty line, and a line that looks like a gutter and the end of a comment. -/
def sampleRows (indentation : Indentation) : List Row :=
  [⟨indentation, ⟨"@param key".toList, by decide, by rintro _ ⟨⟩; decide⟩⟩, ⟨indentation, ⟨[], by decide, nofun⟩⟩,
    ⟨indentation, ⟨"  * never\r null */".toList, by decide, by rintro _ ⟨⟩; decide⟩⟩]

def sampleFlat : Indentation :=
  ⟨[], nofun, by decide⟩

def sampleDeep : Indentation :=
  ⟨" \t\r\u2003".toList, List.all_eq_true.mp (by decide), by decide⟩

theorem ofComment_decorate_sampleRows :
    stripGutter (decorate (sampleRows sampleDeep) sampleDeep) =
        ["", "@param key", "", "  * never\r null */", ""].map String.toList ∧
      (sampleRows sampleDeep).map (fun row => row.line) = (sampleRows sampleFlat).map (fun row => row.line) ∧
      ofComment (String.ofList (decorate (sampleRows sampleDeep) sampleDeep)) =
        ofComment (String.ofList (decorate (sampleRows sampleFlat) sampleFlat)) := by
  obtain ⟨stripped, _⟩ := ofComment_decorate (sampleRows sampleDeep) sampleDeep
  exact ⟨stripped, rfl, (ofComment_decorate (sampleRows sampleFlat) sampleFlat).2 _ _ rfl⟩

end ApiDocs.Documentation
