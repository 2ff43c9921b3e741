import ApiDocs.Markdown.Page
import ApiDocs.Proofs.Comment.Spread

/-!
# The lines of block tags

Each block tag of a comment but `@param` is an item of a list on a page.  An item is one line, since line feeds in the
text of a tag are replaced; but what a `@see` tag refers to is shown as it stands, so that its item breaks if the
reference goes over several lines of the comment.
-/

namespace ApiDocs

namespace Comment

/-- The word behind the at sign that a section starts with. -/
def Section.word? (part : Section) : Option String :=
  (opening? part.line).map fun (word, _) => String.ofList word

/-- The lines of a section without the at sign and the word at its start. -/
def Section.bodyLines (part : Section) : List (List Char) :=
  ((opening? part.line).map Prod.snd).getD [] :: part.following

/-- A section refers to something in more than one line. -/
def Section.IsSpreadReference (part : Section) : Prop :=
  part.word? = some "see" ∧ 2 ≤ part.bodyLines.countP Text.isWritten

instance (part : Section) : Decidable part.IsSpreadReference :=
  inferInstanceAs (Decidable (_ ∧ _))

variable {part : Section} {word rest : List Char}

theorem Opens.word?_eq (opens : Opens part.line word rest) : part.word? = some (String.ofList word) := by
  rw [Section.word?, opening?_of_opens opens]
  rfl

theorem Opens.bodyLines_eq (opens : Opens part.line word rest) :
    part.bodyLines = Text.trimStart rest :: part.following := by
  rw [Section.bodyLines, opening?_of_opens opens]
  rfl

theorem Opens.newLine_notMem_word (opens : Opens part.line word rest) : '\n' ∉ word := by
  intro feeds
  have isWord := opens.isWord '\n' feeds
  rw [Text.isWordChar_of_isBlank (by decide)] at isWord
  cases isWord

/-- The body of a section, each line trimmed, is spread if at least two of its lines are written. -/
theorem Opens.newLine_mem_trim_body_iff (opens : Opens part.line word rest)
    (oneLine : ∀ line ∈ part.lines, '\n' ∉ line) :
    '\n' ∈ Text.trim (joinLines ((rest :: part.following).map Text.trim)) ↔
      2 ≤ part.bodyLines.countP Text.isWritten := by
  have inRest : ∀ line ∈ (rest :: part.following).map Text.trim, '\n' ∉ line := by
    rw [List.forall_mem_map]
    intro line listed feeds
    have among := Text.mem_of_mem_trim feeds
    rcases List.mem_cons.mp listed with rfl | follows
    · refine oneLine part.line List.mem_cons_self ?_
      rw [opens.isLine]
      simp [among]
    · exact oneLine line (List.mem_cons_of_mem _ follows) among
  have sameText : Text.isWritten ∘ Text.trim = Text.isWritten := funext Text.isWritten_trim
  rw [Text.newLine_mem_trim_iff, isSpread_joinLines_iff inRest, List.countP_map, sameText, opens.bodyLines_eq,
    List.countP_cons, List.countP_cons, Text.isWritten_trimStart]

end Comment

namespace Markdown

open Comment

/-! ### Items -/

theorem newLine_notMem_onOneLine (text : String) : '\n' ∉ (onOneLine text).toList := by
  rw [onOneLine, String.toList_ofList, List.mem_map]
  rintro ⟨char, _, isFeed⟩
  split at isFeed
  next => exact absurd isFeed (by decide)
  next other => exact other isFeed

theorem newLine_notMem_label {label : String} (oneLine : '\n' ∉ label.toList) (text : String) :
    '\n' ∉ (label ++ onOneLine text).toList := by
  rw [String.toList_append, List.mem_append, not_or]
  exact ⟨oneLine, newLine_notMem_onOneLine text⟩

/-- All block tags but those of parameters have an item. -/
theorem isSome_tagLine?_iff {word : String} {body : List Char} {tag : Tag} (makes : Makes word body tag) :
    (tagLine? tag).isSome ↔ word ≠ "param" := by
  cases makes with
  | param isWord => exact iff_of_false Bool.false_ne_true (not_not_intro isWord)
  | throws isWord first =>
      refine iff_of_true rfl ?_
      rintro rfl
      exact absurd isWord (by decide)
  | custom isOther =>
      refine iff_of_true rfl ?_
      rintro rfl
      exact isOther (by decide)
  | returns isWord | see isWord | author isWord | since isWord | deprecated isWord =>
      refine iff_of_true rfl ?_
      rw [isWord]
      decide

/-- Only what a `@see` tag refers to can bring a line feed into an item. -/
theorem newLine_mem_tagLine_iff {word : String} {body : List Char} {tag : Tag} {line : String}
    (makes : Makes word body tag) (oneWord : '\n' ∉ word.toList) (shown : tagLine? tag = some line) :
    '\n' ∈ line.toList ↔ word = "see" ∧ '\n' ∈ Text.trim body := by
  cases makes with
  | param => cases shown
  | see isWord =>
      obtain rfl := Option.some.inj shown
      simp [String.toList_append, isWord]
  | returns isWord | author isWord | since isWord | deprecated isWord =>
      obtain rfl := Option.some.inj shown
      refine iff_of_false (newLine_notMem_label (by decide) _) ?_
      rintro ⟨isSee, _⟩
      exact absurd (isWord.symm.trans isSee) (by decide)
  | @throws name _ isWord first =>
      obtain rfl := Option.some.inj shown
      have oneName : '\n' ∉ name := by
        intro feeds
        exact absurd (first.isWord '\n' feeds) (by decide)
      refine iff_of_false (newLine_notMem_label ?_ _) ?_
      · simp [String.toList_append, oneName]
      · rintro ⟨rfl, _⟩
        exact absurd isWord (by decide)
  | custom isOther =>
      obtain rfl := Option.some.inj shown
      refine iff_of_false (newLine_notMem_label ?_ _) ?_
      · simp [String.toList_append, oneWord]
      · rintro ⟨rfl, _⟩
        exact isOther (by decide)

/-- The lines of the item of a list. -/
def itemLines (item : String) : List String :=
  Text.fields '\n' ("- " ++ item)

/-- An item shows the tag of a section, on one line unless the section is a reference over several lines. -/
structure ItemOf (part : Section) (item : String) : Prop where
  tag : ∃ tag, part.Shows tag ∧ tagLine? tag = some item
  newLine_iff : '\n' ∈ item.toList ↔ part.IsSpreadReference
  itemLines_iff : itemLines item = ["- " ++ item] ↔ ¬ part.IsSpreadReference

theorem itemLines_eq_singleton_iff {item : String} : itemLines item = ["- " ++ item] ↔ '\n' ∉ item.toList := by
  constructor
  · intro one feeds
    have cut : "- " ++ item ∈ itemLines item := by simp [one]
    obtain ⟨piece, listed, same⟩ := List.mem_map.mp cut
    refine Text.not_mem_of_mem_splitOn listed ?_
    rw [← String.toList_ofList (l := piece), same, String.toList_append]
    exact List.mem_append_right _ feeds
  · intro oneLine
    refine Text.fields_of_notMem ?_
    simp [String.toList_append, oneLine]

theorem itemOf_tagLine {part : Section} {tag : Tag} {item : String} (shows : part.Shows tag)
    (oneLine : ∀ line ∈ part.lines, '\n' ∉ line) (shown : tagLine? tag = some item) : ItemOf part item := by
  obtain ⟨word, rest, opens, makes⟩ := shows
  have oneWord : '\n' ∉ (String.ofList word).toList := by
    rw [String.toList_ofList]
    exact opens.newLine_notMem_word
  have newLine_iff : '\n' ∈ item.toList ↔ part.IsSpreadReference := by
    rw [newLine_mem_tagLine_iff makes oneWord shown, opens.newLine_mem_trim_body_iff oneLine,
      Section.IsSpreadReference, opens.word?_eq, Option.some.injEq]
  exact ⟨⟨tag, ⟨word, rest, opens, makes⟩, shown⟩, newLine_iff,
    itemLines_eq_singleton_iff.trans (not_congr newLine_iff)⟩

/-- The items of a comment are those of its sections, but for the sections of parameters. -/
theorem forall₂_itemOf {sections : List Section} {tags : List Tag} (shows : List.Forall₂ Section.Shows sections tags)
    (oneLine : ∀ part ∈ sections, ∀ line ∈ part.lines, '\n' ∉ line) :
    List.Forall₂ ItemOf (sections.filter fun part => part.word? ≠ some "param") (tags.filterMap tagLine?) := by
  induction shows with
  | nil => exact .nil
  | @cons part tag others tags here _ ih =>
      obtain ⟨onThis, onOthers⟩ := List.forall_mem_cons.mp oneLine
      have ⟨word, rest, opens, makes⟩ := here
      have listed := isSome_tagLine?_iff makes
      rw [← Option.some_inj.ne, ← opens.word?_eq] at listed
      rw [List.filter_cons, List.filterMap_cons]
      cases shown : tagLine? tag with
      | none =>
          rw [shown] at listed
          have isParam : ¬ decide (part.word? ≠ some "param") = true := by simpa using listed
          rw [if_neg isParam]
          exact ih onOthers
      | some item =>
          rw [shown] at listed
          have isOther : decide (part.word? ≠ some "param") = true := by simpa using listed
          rw [if_pos isOther]
          exact .cons (itemOf_tagLine here onThis shown) (ih onOthers)

/-! ### Lists -/

/-- What a text is cut into at the line feeds, around a list of items and with one item after the other. -/
theorem fields_append_tagList (above below : String) (items : List String) :
    Text.fields '\n' (above ++ tagList items ++ "\n" ++ below) =
      Text.fields '\n' above ++ items.flatMap itemLines ++ Text.fields '\n' below := by
  have feed : "\n" = String.singleton '\n' := rfl
  induction items generalizing above with
  | nil =>
      have none : tagList [] = "" := rfl
      rw [none, String.append_empty, feed, Text.fields_append, List.flatMap_nil, List.append_nil]
  | cons first rest ih =>
      have regrouped : above ++ tagList (first :: rest) ++ "\n" ++ below =
          above ++ String.singleton '\n' ++ ("- " ++ first ++ tagList rest ++ "\n" ++ below) := by
        have opened : tagList (first :: rest) = String.singleton '\n' ++ "- " ++ first ++ tagList rest :=
          String.join_cons
        rw [opened]
        simp only [String.append_assoc]
      rw [regrouped, Text.fields_append, ih, List.flatMap_cons, itemLines]
      simp only [List.append_assoc]

/-- What stands above the items of a class. -/
def ClassView.aboveItems (shown : ClassView) : String :=
  shown.header ++ between "\n" shown.description "\n"

/-- What stands below the items of a class. -/
def ClassView.belowItems (shown : ClassView) : String :=
  String.join (shown.sections.map SectionView.text) ++ propertyTable shown.properties

/-- What stands above the items of a function, its parameters included. -/
def FunctionView.aboveItems (function : FunctionView) : String :=
  "\n#### `" ++ function.signature ++ "`\n\nVisibility: " ++ function.visibility ++ "\n" ++
    between "\n" function.description "\n" ++ String.join (function.parameters.map ParameterView.line)

theorem ClassView.fields_text (shown : ClassView) :
    Text.fields '\n' shown.text =
      Text.fields '\n' shown.aboveItems ++ shown.tags.flatMap itemLines ++ Text.fields '\n' shown.belowItems := by
  rw [← fields_append_tagList, text, aboveItems, belowItems]
  simp only [String.append_assoc]

theorem FunctionView.fields_text (function : FunctionView) :
    Text.fields '\n' function.text =
      Text.fields '\n' function.aboveItems ++ function.tags.flatMap itemLines ++ [""] := by
  have below : Text.fields '\n' "" = [""] := rfl
  rw [← below, ← fields_append_tagList, String.append_empty]
  rfl

/--
Each block tag of a comment but `@param` has one item, in their order, and a class or function with this comment is
shown with the lines of these items one after the other.  An item has one line and no line feed, unless it is that of a
`@see` tag whose reference is written on at least two lines of the comment.
-/
theorem tagLines_breakAtReferences (comment : String) :
    ∃ before sections, IsCut (stripGutter comment.toList) before sections ∧
      List.Forall₂ ItemOf (sections.filter fun part => part.word? ≠ some "param") (tagLines (.ofComment comment)) ∧
      (∀ declared : Class, firstDocumentation (declared.actual.map ClassInfo.info) = .ofComment comment →
        Text.fields '\n' (ClassView.ofClass declared).text =
          Text.fields '\n' (ClassView.ofClass declared).aboveItems ++
            (tagLines (.ofComment comment)).flatMap itemLines ++
            Text.fields '\n' (ClassView.ofClass declared).belowItems) ∧
      ∀ (className : String) (function : Function), firstDocumentation function.actual = .ofComment comment →
        Text.fields '\n' (FunctionView.ofFunction className function).text =
          Text.fields '\n' (FunctionView.ofFunction className function).aboveItems ++
            (tagLines (.ofComment comment)).flatMap itemLines ++ [""] := by
  obtain ⟨before, sections, tags, isCut, tagsEq, shows, _⟩ := Documentation.tags_ofComment comment
  refine ⟨before, sections, isCut, ?items, ?ofClass, ?ofFunction⟩
  case items =>
    have noItem : (Comment.descriptionOf before).filterMap tagLine? = [] := by
      unfold Comment.descriptionOf
      split <;> rfl
    rw [tagLines, tagsEq, List.filterMap_append, noItem, List.nil_append]
    refine forall₂_itemOf shows fun part listed line among => ?_
    have inComment : line ∈ stripGutter comment.toList := by
      rw [isCut.covers]
      exact List.mem_append_right _ (List.mem_flatMap.mpr ⟨part, listed, among⟩)
    exact (isInfix_of_mem_stripGutter inComment).2
  case ofClass =>
    intro declared documented
    rw [ClassView.fields_text, ← documented]
    rfl
  case ofFunction =>
    intro className function documented
    rw [FunctionView.fields_text, ← documented]
    rfl

/-- Documentation without tags is as good as none. -/
theorem firstDocumentation_singleton (info : PlatformInfo) : firstDocumentation [info] = info.documentation := by
  obtain ⟨⟨tags⟩, platforms⟩ := info
  cases tags <;> rfl

/-! The class `Store` and its method `Store put()`, both with one comment. -/

def sampleInfo (comment : String) : PlatformInfo :=
  ⟨.ofComment comment, [⟨.jvm, []⟩]⟩

def samplePut (comment : String) : Function :=
  { address := ⟨some "p", some "Store", some ⟨"put", some ⟨"Store"⟩, []⟩, 0, none⟩
    name := "put"
    returnType := some ⟨some "p.Store", ["p", "Store"], [], some ⟨some "p", some "Store", none, 0, none⟩, false⟩
    isConstructor := false
    receiver := none
    parameters := []
    expected := none
    actual := [sampleInfo comment]
    visibility := .singleton ⟨.jvm, []⟩ .publicAccess }

def sampleStore (comment : String) : Class :=
  { address := ⟨some "p", some "Store", none, 0, none⟩
    name := "Store"
    kind := .plainClass
    constructors := []
    functions := []
    properties := []
    classes := []
    expected := none
    actual := [⟨sampleInfo comment, []⟩]
    extra := .empty
    visibility := .singleton ⟨.jvm, []⟩ .publicAccess }

def sampleTags : String :=
  "/** Keeps things.\n * @param T any\n * @since 2.0,\n *   or later\n * @see Store */"

/-- The reference goes over two lines. -/
def sampleReference : String :=
  "/**\n * @see Store the place\n *      where it is kept\n */"

theorem tagLines_breakAtReferences_sampleTags :
    let shown := ClassView.ofClass (sampleStore sampleTags)
    let function := FunctionView.ofFunction "Store" (samplePut sampleTags)
    firstDocumentation ((sampleStore sampleTags).actual.map ClassInfo.info) = .ofComment sampleTags ∧
      firstDocumentation (samplePut sampleTags).actual = .ofComment sampleTags ∧
      Text.fields '\n' shown.text =
        Text.fields '\n' shown.aboveItems ++ ["- Since: 2.0, or later", "- See: `Store`"] ++
          Text.fields '\n' shown.belowItems ∧
      Text.fields '\n' function.text =
        Text.fields '\n' function.aboveItems ++ ["- Since: 2.0, or later", "- See: `Store`"] ++ [""] := by
  have ofClass : firstDocumentation ((sampleStore sampleTags).actual.map ClassInfo.info) = .ofComment sampleTags :=
    firstDocumentation_singleton _
  have ofFunction : firstDocumentation (samplePut sampleTags).actual = .ofComment sampleTags :=
    firstDocumentation_singleton _
  have items : (tagLines (.ofComment sampleTags)).flatMap itemLines = ["- Since: 2.0, or later", "- See: `Store`"] := by
    decide +kernel
  obtain ⟨_, _, _, _, classes, functions⟩ := tagLines_breakAtReferences sampleTags
  have inClass := classes (sampleStore sampleTags) ofClass
  have inFunction := functions "Store" (samplePut sampleTags) ofFunction
  rw [items] at inClass inFunction
  exact ⟨ofClass, ofFunction, inClass, inFunction⟩

/-- A reference over two lines takes two lines on the page as well. -/
theorem tagLines_break_sampleReference :
    tagLines (.ofComment sampleReference) = ["See: `Store the place\nwhere it is kept`"] ∧
      firstDocumentation ((sampleStore sampleReference).actual.map ClassInfo.info) = .ofComment sampleReference ∧
      Text.fields '\n' (ClassView.ofClass (sampleStore sampleReference)).text =
        ["", "## class Store", "", "Visibility: public", "Platforms: jvm[]", "", "- See: `Store the place",
          "where it is kept`", ""] := by
  exact ⟨by decide +kernel, firstDocumentation_singleton _, by decide +kernel⟩

end Markdown

end ApiDocs
