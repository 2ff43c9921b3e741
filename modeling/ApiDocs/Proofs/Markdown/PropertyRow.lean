import ApiDocs.Markdown.Page
import ApiDocs.Proofs.Comment.Characters
import ApiDocs.Proofs.Markdown.Cells

/-!
# The row of a property

A property is a row of a table, and its description is the last cell.  The row has four cells unless a bar in the
description stands behind an odd number of backslashes, and it is one line unless the description has carriage returns,
which are not replaced as line feeds are.
-/

namespace ApiDocs.Markdown

/-- The line and the cells of a row: the line starts and ends with a bar, and the cells are between its bars. -/
structure IsTableRow (row : String) (line : List Char) (cells : List (List Char)) : Prop where
  isLine : row.toList = line ++ ['\n']
  areCells : cellsBehind [] line = [] :: cells ++ [[]]

/-- A text without bars and line breaks. -/
def IsPlain (text : String) : Prop :=
  ∀ char ∈ ['|', '\n', '\r'], char ∉ text.toList

instance (text : String) : Decidable (IsPlain text) :=
  List.decidableBAll (fun char => char ∉ text.toList) _

/-- The description of a property, empty if it has none. -/
def descriptionText (property : Property) : String :=
  (descriptionOf property.actual).getD ""

theorem toList_description_ofProperty (property : Property) :
    (PropertyView.ofProperty property).description.toList = (descriptionText property).toList.flatMap cellChars := by
  rw [← toList_tableCell, PropertyView.ofProperty, descriptionText]
  cases descriptionOf property.actual with
  | none => rfl
  | some text => rfl

namespace PropertyView

structure HasPlainTexts (property : PropertyView) : Prop where
  name : IsPlain property.name
  typeName : IsPlain property.typeName
  visibility : IsPlain property.visibility

/-- What stands in the cells of a property before its description. -/
def labels (property : PropertyView) : List (List Char) :=
  ["`" ++ property.name ++ "`", "`" ++ property.typeName ++ "`", property.visibility].map String.toList

theorem HasPlainTexts.notMem_padded {property : PropertyView} (plain : property.HasPlainTexts) {char : Char}
    (excluded : char ∈ ['|', '\n', '\r']) {content : List Char} (listed : content ∈ property.labels) :
    char ∉ padded content := by
  have name := plain.name char excluded
  have typeName := plain.typeName char excluded
  have visibility := plain.visibility char excluded
  have noMark : ∀ char ∈ ['|', '\n', '\r'], char ≠ ' ' ∧ char ≠ '`' := by simp
  obtain ⟨noSpace, noQuote⟩ := noMark char excluded
  simp only [labels, List.map_cons, List.map_nil, List.mem_cons, List.not_mem_nil, or_false] at listed
  rcases listed with rfl | rfl | rfl <;> simp [padded, String.toList_append, *]

/-- What stands in the cells of a property. -/
def contents (property : PropertyView) : List (List Char) :=
  property.labels ++ [property.description.toList]

/-- The row of a property without the line feed at its end. -/
def line (property : PropertyView) : List Char :=
  '|' :: property.contents.flatMap fun content => padded content ++ ['|']

theorem toList_row (property : PropertyView) : property.row.toList = property.line ++ ['\n'] := by
  simp [row, line, contents, labels, padded, String.toList_append]

theorem cellsBehind_line {property : PropertyView} (plain : property.HasPlainTexts) :
    cellsBehind [] property.line =
      [] :: (property.labels.map padded ++ cellsBehind [] (padded property.description.toList)) ++ [[]] := by
  have whole : property.labels.flatMap (fun content => cellsBehind [] (padded content)) =
      property.labels.map padded := by
    rw [← List.flatMap_pure_eq_map]
    refine List.flatMap_congr fun content listed => ?_
    exact cellsBehind_of_notMem (plain.notMem_padded List.mem_cons_self listed) []
  have bare : Even (endingBackslashes ([] ++ [])) := Even.zero
  have opened (rest : List Char) : cellsBehind [] ('|' :: rest) = [] :: cellsBehind ['|'] rest :=
    cellsBehind_append_bar bare rest
  rw [line, opened, cellsBehind_row, contents, List.flatMap_append, whole, List.flatMap_singleton, List.cons_append]

/-- A line break in the line of a property comes from its description. -/
theorem mem_line_iff {property : PropertyView} (plain : property.HasPlainTexts) {char : Char}
    (isBreak : char ∈ ['\n', '\r']) : char ∈ property.line ↔ char ∈ property.description.toList := by
  have noMark : ∀ char ∈ ['\n', '\r'], char ≠ ' ' ∧ char ≠ '|' := by simp
  obtain ⟨noSpace, noBar⟩ := noMark char isBreak
  have excluded : char ∈ ['|', '\n', '\r'] := List.mem_cons_of_mem _ isBreak
  constructor
  · intro inLine
    obtain ⟨content, listed, inCell⟩ := List.mem_flatMap.mp ((List.mem_cons.mp inLine).resolve_left noBar)
    have inPadded := (List.mem_append.mp inCell).resolve_right (mt List.mem_singleton.mp noBar)
    rcases List.mem_append.mp listed with isLabel | isDescription
    · exact absurd inPadded (plain.notMem_padded excluded isLabel)
    · rw [List.mem_singleton.mp isDescription] at inPadded
      simpa [padded, noSpace] using inPadded
  · intro inDescription
    refine List.mem_cons_of_mem _ (List.mem_flatMap.mpr ⟨property.description.toList, by simp [contents], ?_⟩)
    simp [padded, inDescription]

end PropertyView

/-! Line feeds of a description are replaced, and carriage returns are kept. -/

theorem newLine_notMem_cellChars (char : Char) : '\n' ∉ cellChars char := by
  unfold cellChars
  split
  · decide
  · split
    · decide
    next noFeed _ => simpa using Ne.symm noFeed

theorem return_mem_cellChars_iff {char : Char} : '\r' ∈ cellChars char ↔ char = '\r' := by
  unfold cellChars
  split
  next isFeed => simp [isFeed]
  next =>
    split
    next isBar => simp [isBar]
    next => simp [eq_comm]

theorem newLine_notMem_description (property : Property) :
    '\n' ∉ (PropertyView.ofProperty property).description.toList := by
  rw [toList_description_ofProperty, List.mem_flatMap]
  rintro ⟨char, _, isFeed⟩
  exact newLine_notMem_cellChars char isFeed

theorem return_mem_description_iff {property : Property} :
    '\r' ∈ (PropertyView.ofProperty property).description.toList ↔ '\r' ∈ (descriptionText property).toList := by
  simp [toList_description_ofProperty, return_mem_cellChars_iff]

/-- What is neither a mark nor a line feed is not in the description of a documented property, unless it is in a line of
the comment. -/
theorem notMem_descriptionText {property : Property} {comment : String} {char : Char}
    (documented : firstDocumentation property.actual = .ofComment comment)
    (noLine : ∀ line ∈ Comment.stripGutter comment.toList, char ∉ line) (noFeed : char ≠ '\n')
    (noMark : char ∉ Fragment.marks) : char ∉ (descriptionText property).toList := by
  intro shown
  rw [descriptionText, descriptionOf, documented] at shown
  cases described : (Documentation.ofComment comment).description? with
  | none =>
      rw [described] at shown
      cases shown
  | some root =>
      rw [described] at shown
      rcases Documentation.mem_of_mem_description described shown with ⟨line, among, inLine⟩ | isFeed | isMark
      · exact noLine line among inLine
      · exact noFeed isFeed
      · exact noMark isMark

/-- A property is shown on one line with four cells, but for carriage returns in its description and for bars in it that
stand behind an odd number of backslashes.  A comment without backslashes has no such bars, and one in which carriage
returns only end lines gives no carriage returns. -/
theorem PropertyView.row_staysInCells {property : Property} (plain : (ofProperty property).HasPlainTexts) :
    ∃ line cells, IsTableRow (ofProperty property).row line cells ∧ '\n' ∉ line ∧
      ('\r' ∈ line ↔ '\r' ∈ (descriptionText property).toList) ∧
      (cells.length = 4 ↔ EvenBarsBehind [] (descriptionText property).toList) ∧
      (cells.length = 4 → cells = (ofProperty property).contents.map padded) ∧
      ∀ comment, firstDocumentation property.actual = .ofComment comment →
        ('\\' ∉ comment.toList → cells.length = 4) ∧ (Comment.ReturnsEndLines comment.toList → '\r' ∉ line) := by
  have counted : (cellsBehind [] (padded (ofProperty property).description.toList)).length = 1 ↔
      EvenBarsBehind [] (descriptionText property).toList := by
    rw [toList_description_ofProperty, length_cellsBehind_padded]
  have fits : ((ofProperty property).labels.map padded ++
      cellsBehind [] (padded (ofProperty property).description.toList)).length = 4 ↔
        (cellsBehind [] (padded (ofProperty property).description.toList)).length = 1 := by
    simp [labels]
  have returns := (mem_line_iff plain (by simp)).trans return_mem_description_iff
  refine ⟨(ofProperty property).line, _, ⟨toList_row _, cellsBehind_line plain⟩, ?oneLine, returns, fits.trans counted,
    ?areCells, fun comment documented => ⟨fun noBackslash => ?escapes, fun endLines => ?ends⟩⟩
  case oneLine =>
    rw [mem_line_iff plain (by simp)]
    exact newLine_notMem_description property
  case areCells =>
    intro four
    rw [cellsBehind_eq_singleton (fits.mp four), contents, List.map_append, List.map_singleton]
  case escapes =>
    rw [fits, counted]
    refine evenBarsBehind_of_notMem (notMem_descriptionText documented ?_ (by decide) (by decide))
    exact fun line among inLine => noBackslash ((Comment.isInfix_of_mem_stripGutter among).1.subset inLine)
  case ends =>
    rw [returns]
    refine notMem_descriptionText documented ?_ (by decide) (by decide)
    exact fun line among => Comment.return_notMem_of_mem_stripGutter endLines among

/-- The field `private int mode` of a class with a comment. -/
def sampleProperty (comment : String) : Property :=
  let jvm : PlatformData := ⟨.jvm, []⟩
  { address := ⟨some "p", some "Flags", some ⟨"mode", some ⟨"Flags"⟩, []⟩, 0, some "property"⟩
    name := "mode"
    type := some ⟨some "int", ["int"], [], none, true⟩
    receiver := none
    expected := none
    actual := [⟨.ofComment comment, [jvm]⟩]
    accessors := []
    visibility := .singleton jvm .privateAccess }

def sampleView (comment : String) : PropertyView :=
  .ofProperty (sampleProperty comment)

def sampleBar : String :=
  "/** Either a | b. */"

/-- The bar has a backslash before it already. -/
def sampleEscaped : String :=
  "/** Either a\\|b. */"

/-- The carriage return does not end a line. -/
def sampleReturn : String :=
  "/** Either a\rb. */"

theorem hasPlainTexts_sampleView (comment : String) : (sampleView comment).HasPlainTexts where
  name := by
    show IsPlain "mode"
    decide
  typeName := by
    show IsPlain "int"
    decide
  visibility := by
    show IsPlain "private"
    decide

theorem row_staysInCells_sampleBar :
    (sampleView sampleBar).HasPlainTexts ∧
      (sampleView sampleBar).row = "| `mode` | `int` | private | Either a \\| b. |\n" ∧
      ∃ line cells, IsTableRow (sampleView sampleBar).row line cells ∧
        '\n' ∉ line ∧ '\r' ∉ line ∧ cells.length = 4 := by
  have plain := hasPlainTexts_sampleView sampleBar
  obtain ⟨line, cells, isRow, oneLine, _, _, _, documented⟩ := PropertyView.row_staysInCells plain
  have same : firstDocumentation (sampleProperty sampleBar).actual = .ofComment sampleBar := by decide +kernel
  obtain ⟨escapes, ends⟩ := documented sampleBar same
  have endLines : Comment.ReturnsEndLines sampleBar.toList := by
    intro front back split
    have noReturn : '\r' ∉ sampleBar.toList := by decide
    exact absurd (by rw [split]; simp) noReturn
  exact ⟨plain, by decide +kernel, line, cells, isRow, oneLine, ends endLines, escapes (by decide)⟩

/-- A backslash before a bar makes a fifth cell, and a carriage return in a line stays in the row. -/
theorem row_leavesCells_sampleEscaped :
    (sampleView sampleEscaped).HasPlainTexts ∧
      firstDocumentation (sampleProperty sampleEscaped).actual = .ofComment sampleEscaped ∧
      IsTableRow (sampleView sampleEscaped).row "| `mode` | `int` | private | Either a\\\\|b. |".toList
        ([" `mode` ", " `int` ", " private ", " Either a\\\\", "b. "].map String.toList) ∧
      (sampleView sampleReturn).HasPlainTexts ∧
      firstDocumentation (sampleProperty sampleReturn).actual = .ofComment sampleReturn ∧
      IsTableRow (sampleView sampleReturn).row "| `mode` | `int` | private | Either a\rb. |".toList
        ([" `mode` ", " `int` ", " private ", " Either a\rb. "].map String.toList) := by
  refine ⟨hasPlainTexts_sampleView _, ?_, ⟨?_, ?_⟩, hasPlainTexts_sampleView _, ?_, ⟨?_, ?_⟩⟩ <;> decide +kernel

end ApiDocs.Markdown
